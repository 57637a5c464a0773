import ReusePort.Core.Native
import ReusePort.Core.Simulated
import ReusePort.Platform.Cbpf

/-!
# ReusePort.Core.QuicServe — the two paths of `QuicServer::serve`

On Linux the kernel picks the worker of a datagram by the classic BPF program, and
the worker's own loop drops what the userspace router would not route. Elsewhere
one loop receives everything and asks the router. Both must come to the same
worker.

* `Native.Accounted`, `Native.steered_accounted` — what the workers behind a
  steering kernel have in hand and have spawned;
* `quic_paths_agree` — the native and the simulated path agree on every packet.
-/

namespace ReusePort

variable {α ρ β : Type}

namespace Native

/-! ## Workers behind a steering kernel -/

/-- The server behind a kernel that gives every arrival to the worker that `select`
names. -/
def steered (L : NativeLoop α ρ β) (n : ℕ) (max : Option ℕ) (select : α → Option ℕ) :
    Lts.Sys (Lts.Fleet Flags (Worker α ρ β)) (Lts.FleetLbl FlagLbl (Lbl α ρ β)) :=
  (server L n max).restrict fun l _ =>
    match l with
    | .proc w (.recv _ a) => select a = some w
    | _ => True

/-- The item between its receive and the decision about it. -/
def Pc.inHand : Pc (Received α ρ) → List (Received α ρ)
  | .check _ (.item x) => [x]
  | .spawning x => [x]
  | _ => []

/-- The loop accepts the arrival, whatever the buffer held before. -/
def AcceptsArrival (L : NativeLoop α ρ β) (n : ℕ) (a : α) : Prop :=
  ∃ before, before.length = bufferLen ∧
    L.accepts (L.receive before a).1 (L.receive before a).2 n = true

/-- The accounts of a worker that receives only the arrivals in `mine`. -/
structure Accounted (L : NativeLoop α ρ β) (n : ℕ) (mine : α → Prop) (k : Worker α ρ β) :
    Prop where
  length_buffer : k.buffer.length = bufferLen
  inHand : ∀ x ∈ k.pc.inHand, L.Fresh k.buffer x ∧ mine x.arrival
  spawned : ∀ i ∈ k.spawned, ∃ a, mine a ∧ AcceptsArrival L n a ∧ i.work = L.item a

section Steps

variable {L : NativeLoop α ρ β} {n : ℕ} {mine : α → Prop} {k : Worker α ρ β}

theorem accounted_initial (max : Option ℕ) : Accounted L n mine (Worker.initial max) where
  length_buffer := length_newBuffer
  inHand := by
    intro x hx
    cases hx
  spawned := by
    intro i hi
    cases hi

/-- A step that ends with the same item in hand, or none, and spawns nothing. -/
theorem Accounted.move {k' : Worker α ρ β} (h : Accounted L n mine k)
    (hbuffer : k'.buffer = k.buffer) (hhand : k'.pc.inHand = k.pc.inHand ∨ k'.pc.inHand = [])
    (hspawned : k'.spawned = k.spawned) : Accounted L n mine k' where
  length_buffer := by
    rw [hbuffer]
    exact h.length_buffer
  inHand := by
    intro x hx
    rw [hbuffer]
    rcases hhand with hsame | hnone
    · rw [hsame] at hx
      exact h.inHand x hx
    · rw [hnone] at hx
      cases hx
  spawned := by
    rw [hspawned]
    exact h.spawned

theorem accounted_load {c : Check} {site : Site (Received α ρ)} (hpc : k.pc = .check c site)
    (h : Accounted L n mine k) (b : Bool) : Accounted L n mine (k.load site c b) := by
  cases b with
  | false =>
      refine h.move rfl (Or.inr ?_) rfl
      cases c <;> cases site <;> rfl
  | true =>
      cases c with
      | runtime =>
          refine h.move rfl (Or.inl ?_) rfl
          rw [hpc]
          cases site <;> rfl
      | server =>
          cases site with
          | head => exact h.move rfl (Or.inr rfl) rfl
          | permit => exact h.move rfl (Or.inr rfl) rfl
          | error =>
              -- a fresh buffer, with nothing in hand
              refine ⟨length_newBuffer, ?_, h.spawned⟩
              intro x hx
              cases hx
          | item x =>
              refine h.move rfl (Or.inl ?_) rfl
              rw [hpc]
              rfl

theorem accounted_step {l : Lbl α ρ β} {f : Flags} (hg : guard L n l f k)
    (hmine : ∀ origin a, l = .recv origin a → mine a) (h : Accounted L n mine k) :
    Accounted L n mine (update L l f k) := by
  cases l with
  | start | startErr | reject x | spawnErr x | abort | abortReceiving =>
      exact h.move rfl (Or.inr rfl) rfl
  | load c site => exact accounted_load hg h _
  | poll pc spurious =>
      simp only [update]
      rcases k.limit.poll spurious pc with ⟨limit, _ | pc'⟩
      · exact h.move rfl (Or.inr rfl) rfl
      · exact h.move rfl (Or.inr rfl) rfl
  | recv origin a =>
      refine ⟨(L.length_receive k.buffer a).trans h.length_buffer, ?_, h.spawned⟩
      intro x hx
      cases List.mem_singleton.mp hx
      exact ⟨⟨k.buffer, h.length_buffer, rfl, rfl⟩, hmine origin a rfl⟩
  | recvErr =>
      refine h.move rfl (Or.inr ?_) rfl
      simp only [update]
      split <;> rfl
  | spawn x =>
      have hhand : x ∈ k.pc.inHand := by
        rw [hg.1]
        exact List.mem_singleton_self x
      rcases h.inHand x hhand with ⟨hfresh, hx⟩
      -- filter and work item are computed from the buffer that the receive left
      have hwork := hfresh.work
      rcases hfresh with ⟨before, hlen, hbuffer, hrecv⟩
      have haccepts := hg.2
      rw [hbuffer, hrecv] at haccepts
      refine ⟨h.length_buffer, ?_, ?_⟩
      · intro y hy
        cases hy
      · intro i hi
        rcases List.mem_append.mp hi with hi | hi
        · exact h.spawned i hi
        · cases List.mem_singleton.mp hi
          exact ⟨x.arrival, hx, ⟨before, hlen, haccepts⟩, hwork⟩
  | drop pc again spurious =>
      simp only [update]
      rcases k.limit.drop spurious pc with ⟨limit, _ | pc'⟩
      · refine h.move rfl (Or.inr ?_) rfl
        cases again <;> rfl
      · exact h.move rfl (Or.inr rfl) rfl
  | handlerEnd i x => exact h.move rfl (Or.inl rfl) rfl
  | handlerDrop i pc spurious => exact h.move rfl (Or.inl rfl) rfl

end Steps

/-- In every state of a steered server each worker has received, and spawned, only
what the kernel gave it. -/
theorem steered_accounted {L : NativeLoop α ρ β} {n : ℕ} {max : Option ℕ}
    {select : α → Option ℕ} {s : Lts.Fleet Flags (Worker α ρ β)}
    (hs : (steered L n max select).Reachable s) :
    ∀ w, Accounted L n (fun a => select a = some w) (s.proc w) := by
  refine (steered L n max select).invariant
    (fun s => ∀ w, Accounted L n (fun a => select a = some w) (s.proc w))
    (fun _ => accounted_initial max) ?_ s hs
  intro l s hg ih
  cases l with
  | env e => exact ih
  | proc v l =>
      have hmine : ∀ origin a, l = .recv origin a → select a = some v := by
        rintro origin a rfl
        exact hg.2
      refine (Function.forall_update_iff s.proc
        fun w k => Accounted L n (fun a => select a = some w) k).mpr ⟨?_, fun w _ => ih w⟩
      exact accounted_step hg.1.2 hmine (ih v)

end Native

/-! ## The two paths -/

/-- The filter of the native loop looks at the received payload. -/
theorem accepts_quicReuseportBpf (localAddr : Option SocketAddr) (n : ℕ) {buffer : List UInt8}
    (d : Datagram) (hlen : buffer.length = bufferLen) :
    (quicReuseportBpfListenerLoopWithState localAddr).accepts (udpReceive buffer d).1
      (udpReceive buffer d).2 n = quicReuseportBpfAcceptsPacket d.payload n := by
  show quicReuseportBpfAcceptsPacket
    ((udpReceive buffer d).1.take (udpReceive buffer d).2.len) n = _
  rw [take_udpReceive d hlen]

/-- What the two loops make of a received datagram, over any content of their
reused buffers: the simulated loop routes to the worker that the kernel selects, if
that worker's filter accepts the datagram, and otherwise skips it. -/
theorem route_eq_kernelSelects {n : ℕ} (hn : 1 ≤ n) (hn' : n ≤ 65536)
    (localAddr : Option SocketAddr) {buffer buffer' : List UInt8} (d : Datagram)
    (hlen : buffer.length = bufferLen) (hlen' : buffer'.length = bufferLen) :
    (quicRoutedUdpListenerLoop localAddr).route (udpReceive buffer d).1
        (udpReceive buffer d).2 n =
      .ofOption ((kernelSelects n d.payload).filter fun _ =>
        (quicReuseportBpfListenerLoopWithState localAddr).accepts (udpReceive buffer' d).1
          (udpReceive buffer' d).2 n) := by
  have hroute := (quicRoutedUdpListenerLoop localAddr).route_receive buffer d n hlen
  have hpaths := (cbpf_refines_userspace hn hn' d.payload).2.2
  rw [accepts_quicReuseportBpf localAddr n d hlen']
  rw [nativeHandlerWorker] at hpaths
  rw [hpaths]
  exact hroute

/-- The native and the simulated path of `QuicServer::serve` agree, for up to
65536 workers. On every packet the program ends with a worker: with the one of the
router, whose filter accepts the packet, or, if the router has none, with some
worker, whose filter rejects it. Every datagram is thus routed by the simulated
loop to the native worker that would run its handler, or dropped by both. And in
every state of the native server behind the program, each worker has spawned
handlers only for packets of its own, and rejects an item in hand exactly if the
router has no worker for it. -/
theorem quic_paths_agree {n : ℕ} (hn : 1 ≤ n) (hn' : n ≤ 65536)
    (localAddr : Option SocketAddr) (max : Option ℕ) :
    (∀ packet,
      (∀ w, quicWorkerIndex packet n = some w →
        kernelSelects n packet = some w ∧ quicReuseportBpfAcceptsPacket packet n = true) ∧
      (quicWorkerIndex packet n = none →
        ∃ w, kernelSelects n packet = some w ∧ w < n ∧
          quicReuseportBpfAcceptsPacket packet n = false)) ∧
    (∀ (d : Datagram) (buffer buffer' : List UInt8), buffer.length = bufferLen →
      buffer'.length = bufferLen →
      (quicRoutedUdpListenerLoop localAddr).route (udpReceive buffer d).1
          (udpReceive buffer d).2 n =
        .ofOption ((kernelSelects n d.payload).filter fun _ =>
          (quicReuseportBpfListenerLoopWithState localAddr).accepts (udpReceive buffer' d).1
            (udpReceive buffer' d).2 n)) ∧
    ∀ s, (Native.steered (quicReuseportBpfListenerLoopWithState localAddr) n max
        fun d => kernelSelects n d.payload).Reachable s →
      ∀ w,
        (∀ item ∈ (s.proc w).spawned, quicWorkerIndex item.work.payload n = some w) ∧
        ∀ x, (s.proc w).pc = .spawning x →
          (Native.guard (quicReuseportBpfListenerLoopWithState localAddr) n (.reject x) s.env
            (s.proc w) ↔ quicWorkerIndex x.arrival.payload n = none) := by
  refine ⟨?_, ?_, ?_⟩
  · intro packet
    have hpaths := cbpf_refines_userspace hn hn' packet
    exact ⟨hpaths.1, hpaths.2.1⟩
  · intro d buffer buffer' hlen hlen'
    exact route_eq_kernelSelects hn hn' localAddr d hlen hlen'
  · intro s hs w
    have haccount := Native.steered_accounted hs w
    constructor
    · -- the item was given to `w` by the program and accepted by the filter
      intro item hitem
      rcases haccount.spawned item hitem with ⟨d, hselect, ⟨before, hlen, haccepts⟩, hwork⟩
      have hpaths := (cbpf_refines_userspace hn hn' d.payload).2.2
      have hfilter := (accepts_quicReuseportBpf localAddr n d hlen).symm.trans haccepts
      rw [nativeHandlerWorker, hselect, hfilter] at hpaths
      rw [hwork]
      exact hpaths.symm
    · intro x hpc
      have hhand : x ∈ (s.proc w).pc.inHand := by
        rw [hpc]
        exact List.mem_singleton_self x
      rcases (haccount.inHand x hhand).1 with ⟨before, hlen, hbuffer, hrecv⟩
      have haccepts := accepts_quicReuseportBpf localAddr n x.arrival hlen
      have hreject : Native.guard (quicReuseportBpfListenerLoopWithState localAddr) n (.reject x)
          s.env (s.proc w) ↔ quicReuseportBpfAcceptsPacket x.arrival.payload n = false := by
        rw [← haccepts]
        simp only [Native.guard, hpc, hbuffer, hrecv, true_and]
        rfl
      rw [hreject, quicReuseportBpfAcceptsPacket, Option.isSome_eq_false_iff,
        Option.isNone_iff_eq_none]

/-- Four workers: a short-header packet of worker 3, and a long header whose DCID has
one byte, which the program gives to a worker that rejects it. -/
theorem quic_paths_agree_four :
    kernelSelects 4 [0x40, 0x01, 0x03] = some 3 ∧
      quicReuseportBpfAcceptsPacket [0x40, 0x01, 0x03] 4 = true ∧
      ∃ w, kernelSelects 4 [0xc0, 0, 0, 0, 1, 1, 7, 9] = some w ∧ w < 4 ∧
        quicReuseportBpfAcceptsPacket [0xc0, 0, 0, 0, 1, 1, 7, 9] 4 = false := by
  have h := (quic_paths_agree (n := 4) (by decide) (by decide) none none).1
  have hshort := (h [0x40, 0x01, 0x03]).1 3 (by decide)
  exact ⟨hshort.1, hshort.2, (h [0xc0, 0, 0, 0, 1, 1, 7, 9]).2 (by decide)⟩

end ReusePort
