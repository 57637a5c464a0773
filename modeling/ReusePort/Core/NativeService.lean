import ReusePort.Core.QuicServe
import ReusePort.Core.SimulatedService

/-!
# ReusePort.Core.NativeService — the native servers implement the service

A native loop takes its permit before it receives, so there is never more than one
item waiting on a worker, and it has its permit already: with or without a limit,
no item is refused.

* `answers_step` — every step of a worker is answered by the service;
* `native_refines` — the native UDP and TCP servers implement the service in which
  the kernel has chosen the worker;
* `quic_implements_one_service` — the two paths of `QuicServer::serve` implement one
  and the same service.
-/

namespace ReusePort

namespace Native

variable {α ρ β γ : Type}

/-! ## The service of a native server -/

/-- The items that a loop keeps, whatever its buffer held before. -/
def Keeps (L : NativeLoop α ρ β) (n : ℕ) (keeps : α → Bool) : Prop :=
  ∀ buffer a, buffer.length = bufferLen →
    L.accepts (L.receive buffer a).1 (L.receive buffer a).2 n = keeps a

/-- The kernel has given the arrival to a worker; nothing is refused. -/
def spec (L : NativeLoop α ρ β) (max : Option ℕ) (keeps : α → Bool) : Service.Spec (ℕ × α) β where
  limit := Simulated.maxOf (.new max)
  refuses := false
  route := fun a => if keeps a.2 then some a.1 else none
  item := fun a => L.item a.2

/-- What can be seen of a native server, where an arrival `a` at worker `w` is known as
`name w a`. The handler is given what the loop makes of its buffer. -/
def event (L : NativeLoop α ρ β) (name : ℕ → α → γ) :
    Lts.FleetLbl FlagLbl (Lbl α ρ β) → Lts.Fleet Flags (Worker α ρ β) →
      Option (Service.Event γ β)
  | .env .runtimeDrop, _ => some .closed
  | .env .closeStore, _ => some .closed
  | .proc w (.recv _ a), _ => some (.arrived (name w a))
  | .proc w (.spawn x), s => some (.handled w (itemOf L (s.proc w) x).work)
  | .proc w (.spawnErr _), _ => some (.failed w)
  | .proc w (.handlerEnd _ x), _ => some (.finished w x.work)
  | _, _ => none

/-- The item that waits on a worker. -/
def waiting (L : NativeLoop α ρ β) (keeps : α → Bool) (pc : Pc (Received α ρ)) : List β :=
  (pc.inHand.filter fun x => keeps x.arrival).map fun x => L.item x.arrival

def slot (L : NativeLoop α ρ β) (keeps : α → Bool) (f : Flags) (k : Worker α ρ β) :
    Service.Slot β where
  waiting := waiting L keeps k.pc
  running := Handler.items k.handlers
  ending := Handler.endings k.handlers
  up := f.isActive

def view (L : NativeLoop α ρ β) (keeps : α → Bool) (s : Lts.Fleet Flags (Worker α ρ β)) :
    Service.View β :=
  fun w => slot L keeps s.env (s.proc w)

section Answers

variable {L : NativeLoop α ρ β} {n : ℕ} {max : Option ℕ} {keeps : α → Bool} {name : ℕ → α → γ}
  {sp : Service.Spec γ β} {s : Lts.Fleet Flags (Worker α ρ β)} {t : Service.St β} {w : ℕ}

theorem exact_of_maxOf (hs : (server L n max).Reachable s) {m : ℕ}
    (hm : Simulated.maxOf (.new max) = some m) (w : ℕ) :
    ∃ c, (s.proc w).limit = some c ∧
      Share.Exact m c ((s.proc w).pc.share + Handler.total (s.proc w).handlers) := by
  refine Simulated.exact_of_pool hm (s.proc w).pc.waiter ?_
  rintro k rfl hpos
  exact reachable_pool hpos hs w

/-- The item that is handed to a handler has the permit of the loop. -/
theorem room (hs : (server L n max).Reachable s) {x : Received α ρ}
    (hpc : (s.proc w).pc = .spawning x) (m : ℕ) (hm : Simulated.maxOf (.new max) = some m) :
    (Handler.items (s.proc w).handlers).card + Handler.endings (s.proc w).handlers < m := by
  rcases exact_of_maxOf hs hm w with ⟨c, -, hexact⟩
  have hone : (s.proc w).pc.share.live = 1 := by
    rw [hpc]
    rfl
  refine Simulated.room_of_exact hexact ?_ Nat.zero_lt_one
  rw [Share.live_add, hone]

/-- The loop goes from one place to another with the same items. -/
theorem answers_keep (h : Service.Represents (view L keeps s) t) {k : Worker α ρ β}
    (hwaiting : waiting L keeps k.pc = waiting L keeps (s.proc w).pc)
    (hhandlers : k.handlers = (s.proc w).handlers) :
    Lts.Answers (Service.sys sp) (fun l _ => l.event) []
      (Service.Represents (Function.update (view L keeps s) w (slot L keeps s.env k))) t := by
  refine h.stutter_at ⟨?_, ?_, ?_, id⟩ hwaiting
  · simp only [view, slot, hhandlers]
  · simp only [view, slot, hhandlers]
    exact le_refl _
  · intro _
    simp only [view, slot, hhandlers]

theorem answers_load (h : Service.Represents (view L keeps s) t) {c : Check}
    {site : Site (Received α ρ)} (hpc : (s.proc w).pc = .check c site) :
    Lts.Answers (Service.sys sp) (fun l _ => l.event) []
      (Service.Represents (Function.update (view L keeps s) w
        (slot L keeps s.env ((s.proc w).load site c (s.env.get c))))) t := by
  cases hb : s.env.get c with
  | true =>
      refine answers_keep h ?_ ?_
      · rw [hpc]
        cases c <;> cases site <;> rfl
      · cases c <;> cases site <;> rfl
  | false =>
      have hinactive : ¬ s.env.isActive := by
        rintro ⟨hruntime, hserver⟩
        cases c
        · exact absurd (hb.symm.trans hruntime) (by decide)
        · exact absurd (hb.symm.trans hserver) (by decide)
      have hleft : ∀ site : Site (Received α ρ),
          waiting L keeps ((s.proc w).load site c false).pc = [] := by
        intro site
        cases c <;> cases site <;> rfl
      have hsame : ((s.proc w).load site c false).handlers = (s.proc w).handlers := by
        cases c <;> rfl
      cases hwas : waiting L keeps (s.proc w).pc with
      | nil => exact answers_keep h ((hleft site).trans hwas.symm) hsame
      | cons b rest =>
          -- the item in hand is lost to the close
          have hrest : rest = [] := by
            have hlen : (waiting L keeps (s.proc w).pc).length ≤ 1 := by
              rw [waiting, List.length_map]
              refine (List.length_filter_le _ _).trans ?_
              rw [hpc]
              cases site <;> simp [Pc.inHand]
            rw [hwas] at hlen
            simpa using hlen
          subst hrest
          refine h.shed_at [] [] (b := b) ⟨?_, ?_, fun hup => absurd hup hinactive, id⟩ hwas
            (hleft site) hinactive
          · simp only [view, slot, hsame]
          · simp only [view, slot, hsame]
            exact le_refl _

/-- A step between two places where the loop has nothing in hand. -/
theorem answers_idle (h : Service.Represents (view L keeps s) t) {k : Worker α ρ β}
    (hwas : (s.proc w).pc.inHand = []) (hnow : k.pc.inHand = [])
    (hhandlers : k.handlers = (s.proc w).handlers) :
    Lts.Answers (Service.sys sp) (fun l _ => l.event) []
      (Service.Represents (Function.update (view L keeps s) w (slot L keeps s.env k))) t := by
  refine answers_keep h ?_ hhandlers
  rw [waiting, waiting, hwas, hnow]

/-- What the loop decides about an item, and makes of it, is what the arrival says. -/
theorem fresh_spawning (hkeeps : Keeps L n keeps) {k : Worker α ρ β}
    (haccounted : Accounted L n (fun _ => True) k) {x : Received α ρ} (hpc : k.pc = .spawning x) :
    L.accepts k.buffer x.recv n = keeps x.arrival ∧ (itemOf L k x).work = L.item x.arrival := by
  have hfresh : L.Fresh k.buffer x := by
    refine (haccounted.inHand x ?_).1
    rw [hpc]
    exact List.mem_singleton_self x
  refine ⟨?_, hfresh.work⟩
  rcases hfresh with ⟨before, hlen, hbuffer, hrecv⟩
  rw [hbuffer, hrecv]
  exact hkeeps before x.arrival hlen

theorem waiting_spawning {pc : Pc (Received α ρ)} {x : Received α ρ} (hpc : pc = .spawning x) :
    waiting L keeps pc = if keeps x.arrival then [L.item x.arrival] else [] := by
  rw [hpc]
  cases hx : keeps x.arrival <;> simp [waiting, Pc.inHand, hx]

theorem answers_recv (h : Service.Represents (view L keeps s) t) {origin : Origin} {a : α}
    (hpc : (s.proc w).pc = .receiving)
    (harrive : ∀ u, Service.routed sp u [.arrived (name w a)] =
      if u = w ∧ keeps a = true then [L.item a] else []) :
    Lts.Answers (Service.sys sp) (fun l _ => l.event) [.arrived (name w a)]
      (Service.Represents (Function.update (view L keeps s) w
        (slot L keeps s.env (update L (.recv origin a) s.env (s.proc w))))) t := by
  refine h.arrive (name w a) (Service.Slot.Quiet.update ⟨rfl, le_refl _, fun _ => rfl, id⟩) ?_
  intro u
  rw [harrive u]
  by_cases hu : u = w
  · subst hu
    rw [Function.update_self]
    have hnone : (view L keeps s u).waiting = [] := by
      simp [view, slot, waiting, hpc, Pc.inHand]
    rw [hnone]
    cases ha : keeps a <;> simp [slot, waiting, update, Pc.inHand, ha]
  · rw [Function.update_of_ne hu, if_neg (fun hboth => hu hboth.1), List.append_nil]

theorem answers_spawn (hs : (server L n max).Reachable s)
    (hlimit : sp.limit = Simulated.maxOf (.new max)) (hkeeps : Keeps L n keeps)
    (haccounted : Accounted L n (fun _ => True) (s.proc w))
    (h : Service.Represents (view L keeps s) t) {x : Received α ρ}
    (hg : guard L n (.spawn x) s.env (s.proc w)) :
    Lts.Answers (Service.sys sp) (fun l _ => l.event)
      [.handled w (itemOf L (s.proc w) x).work]
      (Service.Represents (Function.update (view L keeps s) w
        (slot L keeps s.env (update L (.spawn x) s.env (s.proc w))))) t := by
  rcases fresh_spawning hkeeps haccounted hg.1 with ⟨haccepts, hwork⟩
  have hkept : keeps x.arrival = true := haccepts.symm.trans hg.2
  refine h.handle ?_ ?_ ?_ id ?_
  · refine (waiting_spawning hg.1).trans ?_
    rw [if_pos hkept, hwork]
    rfl
  · exact Handler.items_cons (.running (itemOf L (s.proc w) x)) (s.proc w).handlers
  · exact (Handler.endings_cons (.running (itemOf L (s.proc w) x))
      (s.proc w).handlers).trans (zero_add _)
  · intro m hm
    exact room hs hg.1 m (hlimit.symm.trans hm)

theorem answers_spawnErr (hkeeps : Keeps L n keeps)
    (haccounted : Accounted L n (fun _ => True) (s.proc w))
    (h : Service.Represents (view L keeps s) t) {x : Received α ρ}
    (hg : guard L n (.spawnErr x) s.env (s.proc w)) :
    Lts.Answers (Service.sys sp) (fun l _ => l.event) [.failed w]
      (Service.Represents (Function.update (view L keeps s) w
        (slot L keeps s.env (update L (.spawnErr x) s.env (s.proc w))))) t := by
  have hkept : keeps x.arrival = true :=
    (fresh_spawning hkeeps haccounted hg.1).1.symm.trans hg.2
  refine h.fail_shed [] [L.item x.arrival] [] rfl (le_refl _) ?_ rfl
  exact (waiting_spawning hg.1).trans (if_pos hkept)

/-- Every step of worker `w` is answered by the service. -/
theorem answers_step (hs : (server L n max).Reachable s)
    (hlimit : sp.limit = Simulated.maxOf (.new max)) (hkeeps : Keeps L n keeps)
    (haccounted : Accounted L n (fun _ => True) (s.proc w)) {l : Lbl α ρ β}
    (harrive : ∀ origin a, l = .recv origin a →
      ∀ u, Service.routed sp u [.arrived (name w a)] =
        if u = w ∧ keeps a = true then [L.item a] else [])
    (hg : guard L n l s.env (s.proc w)) (h : Service.Represents (view L keeps s) t) :
    Lts.Answers (Service.sys sp) (fun l _ => l.event) (event L name (.proc w l) s).toList
      (Service.Represents (Function.update (view L keeps s) w
        (slot L keeps s.env (update L l s.env (s.proc w))))) t := by
  cases l with
  | start | startErr =>
      refine answers_idle h ?_ rfl rfl
      rw [show (s.proc w).pc = .submitted from hg]
      rfl
  | load c site => exact answers_load h hg
  | poll pc spurious =>
      have hpc : (s.proc w).pc = .acquiring pc := hg
      refine answers_idle h (by rw [hpc]; rfl) ?_ ?_
      · simp only [update]
        rcases (s.proc w).limit.poll spurious pc with ⟨limit, _ | pc'⟩ <;> rfl
      · simp only [update]
        rcases (s.proc w).limit.poll spurious pc with ⟨limit, _ | pc'⟩ <;> rfl
  | recv origin a => exact answers_recv h hg.1 (harrive origin a rfl)
  | recvErr =>
      refine answers_idle h ?_ ?_ rfl
      · rw [show (s.proc w).pc = .receiving from hg]
        rfl
      · simp only [update]
        split <;> rfl
  | reject x =>
      -- the filter says what the service says: there is no worker for the item
      have hlost : keeps x.arrival = false :=
        (fresh_spawning hkeeps haccounted hg.1).1.symm.trans hg.2
      refine answers_keep h ?_ rfl
      rw [waiting_spawning hg.1, hlost]
      rfl
  | spawn x => exact answers_spawn hs hlimit hkeeps haccounted h hg
  | spawnErr x => exact answers_spawnErr hkeeps haccounted h hg
  | drop pc again spurious =>
      have hpc : (s.proc w).pc = .dropping pc again := hg
      refine answers_idle h (by rw [hpc]; rfl) ?_ ?_
      · simp only [update]
        rcases (s.proc w).limit.drop spurious pc with ⟨limit, _ | pc'⟩ <;> cases again <;> rfl
      · simp only [update]
        rcases (s.proc w).limit.drop spurious pc with ⟨limit, _ | pc'⟩ <;> rfl
  | abort =>
      refine answers_idle h ?_ rfl rfl
      rcases hg.2 with hpc | hpc
      · rw [hpc]
        rfl
      · rw [hpc]
        rfl
  | abortReceiving =>
      refine answers_idle h ?_ rfl rfl
      rw [hg.2]
      rfl
  | handlerEnd i x =>
      have hi : (s.proc w).handlers[i]? = some (.running x) := hg
      rcases Handler.set_end hi with ⟨hitems, hendings⟩
      exact h.finish rfl hitems hendings id
  | handlerDrop i pc spurious =>
      have hi : (s.proc w).handlers[i]? = some (.dropping pc) := hg
      rcases Handler.set_drop hi (s.proc w).limit spurious with ⟨hitems, hle, hle'⟩
      exact h.release rfl hitems hle hle' id

theorem answers_env (h : Service.Represents (view L keeps s) t) (e : FlagLbl) :
    Lts.Answers (Service.sys sp) (fun l _ => l.event) (event L name (.env e) s).toList
      (Service.Represents (view L keeps { s with env := e.update s.env })) t := by
  cases e with
  | runtimeDrop | closeStore => exact h.close (fun _ => rfl) (fun _ => rfl) (fun _ => rfl)
  | closeWake =>
      refine h.stutter ?_ (fun _ => rfl)
      intro u
      exact ⟨rfl, le_refl _, fun _ => rfl, id⟩

theorem view_proc (l : Lbl α ρ β) :
    view L keeps ((server L n max).update (.proc w l) s) =
      Function.update (view L keeps s) w (slot L keeps s.env (update L l s.env (s.proc w))) := by
  funext u
  exact Function.apply_update (fun _ => slot L keeps s.env) s.proc w _ u

theorem represents_initial (f : Flags) (hf : f.isActive) (max : Option ℕ) :
    Service.Represents (view L keeps ⟨f, fun _ => Worker.initial max⟩) Service.St.initial :=
  fun _ => ⟨rfl, rfl, le_refl _, fun _ => rfl, fun _ => hf⟩

end Answers

/-- In every state of a server each loop has in hand what it received last. -/
theorem reachable_accounted {L : NativeLoop α ρ β} {n : ℕ} {max : Option ℕ}
    {s : Lts.Fleet Flags (Worker α ρ β)} (hs : (server L n max).Reachable s) (w : ℕ) :
    Accounted L n (fun _ => True) (s.proc w) :=
  Lts.Proc.invariant (fun _ => Accounted L n fun _ => True) (accounted_initial max)
    (fun _ _ _ _ h => h) (fun _ _ _ hg h => accounted_step hg (fun _ _ _ => trivial) h) hs w

/-- The service follows the server step by step. -/
def simulation (L : NativeLoop α ρ β) (n : ℕ) (max : Option ℕ) {keeps : α → Bool}
    (hkeeps : Keeps L n keeps) :
    Lts.Simulation (server L n max) (event L Prod.mk) (Service.sys (spec L max keeps))
      (fun l _ => l.event) where
  rel := fun s => Service.Represents (view L keeps s)
  init := represents_initial .initial ⟨rfl, rfl⟩ max
  step := by
    intro l s t hs hg h
    cases l with
    | env e => exact answers_env h e
    | proc w l =>
        rw [view_proc]
        refine answers_step hs rfl hkeeps (reachable_accounted hs w) ?_ hg.2 h
        intro origin a _ u
        rw [Service.routed_arrived]
        by_cases hu : u = w
        · cases ha : keeps a <;> simp [spec, ha, hu]
        · cases ha : keeps a <;> simp [spec, ha, hu, Ne.symm hu]

/-! ## Behind a steering kernel -/

section Steered

variable {L : NativeLoop α ρ β} {n : ℕ} {max : Option ℕ} {select : α → Option ℕ}

theorem reachable_of_steered {s : Lts.Fleet Flags (Worker α ρ β)}
    (hs : (steered L n max select).Reachable s) : (server L n max).Reachable s := by
  rcases hs with ⟨tr, hrun⟩
  exact ⟨tr, hrun.of_restrict⟩

/-- Where the kernel chooses the worker by the arrival, the service need not be told: its own
route says where the arrival goes, if the filter of the loop keeps it. -/
def steeredSimulation {keeps : α → Bool} (hkeeps : Keeps L n keeps) (sp : Service.Spec α β)
    (hlimit : sp.limit = Simulated.maxOf (.new max)) (hitem : sp.item = L.item)
    (hroute : ∀ a w, select a = some w → sp.route a = if keeps a then some w else none) :
    Lts.Simulation (steered L n max select) (event L fun _ a => a) (Service.sys sp)
      (fun l _ => l.event) where
  rel := fun s => Service.Represents (view L keeps s)
  init := represents_initial .initial ⟨rfl, rfl⟩ max
  step := by
    intro l s t hs hg h
    have hs' := reachable_of_steered hs
    cases l with
    | env e => exact answers_env h e
    | proc w l =>
        show Lts.Answers _ _ _
          (Service.Represents (view L keeps ((server L n max).update (.proc w l) s))) t
        rw [view_proc]
        refine answers_step hs' hlimit hkeeps (reachable_accounted hs' w) ?_ hg.1.2 h
        rintro origin a rfl u
        rw [Service.routed_arrived, hroute a w hg.2, hitem]
        by_cases hu : u = w
        · cases ha : keeps a <;> simp [hu]
        · cases ha : keeps a <;> simp [hu, Ne.symm hu]

end Steered

theorem keeps_udp (n : ℕ) : Keeps udpListenerLoopWithState n fun _ => true :=
  fun _ _ _ => rfl

theorem keeps_tcp (n : ℕ) : Keeps tcpListenerLoopWithState n fun _ => true :=
  fun _ _ _ => rfl

theorem keeps_quic (localAddr : Option SocketAddr) (n : ℕ) :
    Keeps (quicReuseportBpfListenerLoopWithState localAddr) n
      fun d => quicReuseportBpfAcceptsPacket d.payload n :=
  fun _ d hlen => accepts_quicReuseportBpf localAddr n d hlen

end Native

/-- The native servers implement their service, for any number of workers and any limit: UDP
and TCP with whatever worker the kernel gives an arrival to, and QUIC too, where the loop drops
what it cannot route. With or without a limit no item is ever refused, so an item is lost only
after a close or on a worker that has failed. This is an inclusion of what can be seen in finite
time, which a server that does nothing has too; `native_observed` is a run. -/
theorem native_refines (n : ℕ) (max : Option ℕ) (localAddr : Option SocketAddr) :
    Lts.Refines (Native.server udpListenerLoopWithState n max)
        (Native.event udpListenerLoopWithState Prod.mk)
        (Service.sys (Native.spec udpListenerLoopWithState max fun _ => true))
        (fun l _ => l.event) ∧
      Lts.Refines (Native.server tcpListenerLoopWithState n max)
        (Native.event tcpListenerLoopWithState Prod.mk)
        (Service.sys (Native.spec tcpListenerLoopWithState max fun _ => true))
        (fun l _ => l.event) ∧
      Lts.Refines (Native.server (quicReuseportBpfListenerLoopWithState localAddr) n max)
        (Native.event (quicReuseportBpfListenerLoopWithState localAddr) Prod.mk)
        (Service.sys (Native.spec (quicReuseportBpfListenerLoopWithState localAddr) max
          fun d => quicReuseportBpfAcceptsPacket d.payload n))
        (fun l _ => l.event) :=
  ⟨(Native.simulation _ n max (Native.keeps_udp n)).refines,
    (Native.simulation _ n max (Native.keeps_tcp n)).refines,
    (Native.simulation _ n max (Native.keeps_quic localAddr n)).refines⟩

/-- A TCP server with one worker is seen to accept a connection, to run its handler and to be
closed. -/
theorem native_observed :
    let c : Connection := ⟨7, .v4 #v[127, 0, 0, 1] 55000⟩
    ∃ s, (Native.server tcpListenerLoopWithState 1 none).Observed
      (Native.event tcpListenerLoopWithState Prod.mk)
      (Native.server tcpListenerLoopWithState 1 none).init
      [.arrived (0, c), .handled 0 ⟨7⟩, .finished 0 ⟨7⟩, .closed] s := by
  intro c
  let x : Received Connection Connection := ⟨c, c, .peer⟩
  have hexec : ((Native.server tcpListenerLoopWithState 1 none).exec
      (Native.server tcpListenerLoopWithState 1 none).init
      [.proc 0 .start, .proc 0 (.load .runtime .head), .proc 0 (.load .server .head),
        .proc 0 (.poll .load false), .proc 0 (.load .runtime .permit),
        .proc 0 (.load .server .permit), .proc 0 (.recv .peer c),
        .proc 0 (.load .runtime (.item x)), .proc 0 (.load .server (.item x)), .proc 0 (.spawn x),
        .proc 0 (.handlerEnd 0 ⟨⟨7⟩, .peer⟩), .env .closeStore]).isSome = true := by
    decide
  rcases Option.isSome_iff_exists.mp hexec with ⟨s, hs⟩
  exact ⟨s, Lts.Sys.observed_of_exec _ (Native.event tcpListenerLoopWithState Prod.mk) hs⟩

/-! ## One service for QUIC -/

/-- `QuicServer::serve`: the worker is the one that the destination CID names. -/
def quicService (n : ℕ) (max : Option ℕ) (localAddr : Option SocketAddr) (refuses : Bool) :
    Service.Spec Datagram UdpWorkItem where
  limit := Simulated.maxOf (.new max)
  refuses := refuses
  route := fun d => quicWorkerIndex d.payload n
  item := fun d => ⟨⟨some d.peerAddr, localAddr⟩, d.payload⟩

theorem spec_quicRouted (n : ℕ) (max : Option ℕ) (localAddr : Option SocketAddr) :
    Simulated.spec (quicRoutedUdpListenerLoop localAddr) n max =
      quicService n max localAddr true := by
  have hroute : ∀ d : Datagram, (Route.ofOption (quicWorkerIndex d.payload n)).worker? =
      quicWorkerIndex d.payload n := by
    intro d
    cases quicWorkerIndex d.payload n <;> rfl
  simp only [Simulated.spec, quicService, quicRoutedUdpListenerLoop, hroute]
  rfl

/-- What the program selects and the filter keeps is what the router says. -/
theorem route_of_kernelSelects {n : ℕ} (hn : n ≤ 65536) {packet : List UInt8}
    {w : ℕ} (hselect : kernelSelects n packet = some w) :
    quicWorkerIndex packet n =
      if quicReuseportBpfAcceptsPacket packet n then some w else none := by
  rw [quicReuseportBpfAcceptsPacket]
  cases hroute : quicWorkerIndex packet n with
  | none => rfl
  | some v =>
      have hv := kernelSelects_of_routed hn hroute
      rw [hselect] at hv
      cases hv
      rfl

/-- The service follows the native workers behind the classic BPF program. -/
def Native.quicSimulation {n : ℕ} (hn : n ≤ 65536) (max : Option ℕ)
    (localAddr : Option SocketAddr) (refuses : Bool) :
    Lts.Simulation
      (Native.steered (quicReuseportBpfListenerLoopWithState localAddr) n max
        fun d => kernelSelects n d.payload)
      (Native.event (quicReuseportBpfListenerLoopWithState localAddr) fun _ d => d)
      (Service.sys (quicService n max localAddr refuses)) (fun l _ => l.event) :=
  Native.steeredSimulation (Native.keeps_quic localAddr n) _ rfl rfl
    fun _ _ hselect => route_of_kernelSelects hn hselect

/-- The two paths of `QuicServer::serve` implement one and the same service, in which the worker
of a datagram is the one that its destination CID names: the native workers behind the classic
BPF program, for up to 65536 of them, and the simulated server. The native path keeps to it also
where no item may be refused. -/
theorem quic_implements_one_service {n : ℕ} (hn : n ≤ 65536) (max : Option ℕ)
    (localAddr : Option SocketAddr) :
    (∀ refuses, Lts.Refines
        (Native.steered (quicReuseportBpfListenerLoopWithState localAddr) n max
          fun d => kernelSelects n d.payload)
        (Native.event (quicReuseportBpfListenerLoopWithState localAddr) fun _ d => d)
        (Service.sys (quicService n max localAddr refuses)) (fun l _ => l.event)) ∧
      Lts.Refines (Simulated.server (quicRoutedUdpListenerLoop localAddr) n max)
        (fun l _ => Simulated.event l)
        (Service.sys (quicService n max localAddr true)) (fun l _ => l.event) := by
  constructor
  · intro refuses
    exact (Native.quicSimulation hn max localAddr refuses).refines
  · rw [← spec_quicRouted]
    exact (Simulated.simulation _ n max).refines

/-- Four workers with two permits each. -/
theorem quic_implements_one_service_four :
    Lts.Refines
        (Native.steered (quicReuseportBpfListenerLoopWithState none) 4 (some 2)
          fun d => kernelSelects 4 d.payload)
        (Native.event (quicReuseportBpfListenerLoopWithState none) fun _ d => d)
        (Service.sys (quicService 4 (some 2) none true)) (fun l _ => l.event) ∧
      Lts.Refines (Simulated.server (quicRoutedUdpListenerLoop none) 4 (some 2))
        (fun l _ => Simulated.event l)
        (Service.sys (quicService 4 (some 2) none true)) (fun l _ => l.event) := by
  have h := quic_implements_one_service (n := 4) (by decide) (some 2) none
  exact ⟨h.1 true, h.2⟩

end ReusePort
