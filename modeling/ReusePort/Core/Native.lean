import ReusePort.Core.Listener
import ReusePort.Core.Quic

/-!
# ReusePort.Core.Native — the native handler servers

With kernel reuse-port balancing every worker has its own socket and its own
listener loop: `udp_listener_loop_with_state` (`core/udp.rs`),
`quic_reuseport_bpf_listener_loop_with_state` (`core/quic.rs`) and
`tcp_listener_loop_with_state` (`core/tcp.rs`). The three are one loop, with the
differences in a `NativeLoop`; the model cuts it at every access to shared
memory and at every `await`. A server is a fleet of such loops under the flags
that `close` and the drop of the runtime clear.
-/

namespace ReusePort

/-- What tells the three native loops apart: how they receive, and which of the
received items they keep (`accepts`, given the worker count). -/
structure NativeLoop (α ρ β : Type) extends Receiver α ρ β where
  accepts : List UInt8 → ρ → ℕ → Bool

/-- `udp_listener_loop_with_state`. -/
def udpListenerLoopWithState : NativeLoop Datagram UdpRecv UdpWorkItem :=
  { udpReceiver some with accepts := fun _ _ _ => true }

/-- `quic_reuseport_bpf_listener_loop_with_state`; `localAddr` is
`socket.local_addr().ok()`. -/
def quicReuseportBpfListenerLoopWithState (localAddr : Option SocketAddr) :
    NativeLoop Datagram UdpRecv UdpWorkItem :=
  { udpReceiver (fun _ => localAddr) with
    accepts := fun buffer r workerCount =>
      quicReuseportBpfAcceptsPacket (buffer.take r.len) workerCount }

/-- `tcp_listener_loop_with_state`. -/
def tcpListenerLoopWithState : NativeLoop Connection Connection TcpWorkItem :=
  { tcpReceiver with accepts := fun _ _ _ => true }

namespace Native

/-! ## The loop -/

/-- The places where the loop calls `is_active`: at its head, with the permit,
after a failed receive, and with an item in hand. -/
inductive Site (κ : Type) where
  | head
  | permit
  | error
  | item (x : κ)
deriving DecidableEq, Repr

/-- Where the task of a worker stands. `dropping` is the drop of the loop's own
permit, at a `continue` (`again`) or at a `break`. -/
inductive Pc (κ : Type) where
  | submitted
  | check (c : Check) (site : Site κ)
  | acquiring (pc : PollPc)
  | receiving
  | spawning (x : κ)
  | dropping (pc : DropPc) (again : Bool)
  | exited
deriving DecidableEq, Repr

/-- A worker: its listener task, its limit, its handler tasks, and the record of
the items for which a handler was spawned. -/
structure Worker (α ρ β : Type) where
  pc : Pc (Received α ρ)
  buffer : List UInt8
  limit : WorkerConcurrencyLimit
  handlers : List (Handler β)
  spawned : List (Item β)

inductive Lbl (α ρ β : Type) where
  | start
  | startErr
  | load (c : Check) (site : Site (Received α ρ))
  | poll (pc : PollPc) (spurious : Bool)
  | recv (origin : Origin) (a : α)
  | recvErr
  | reject (x : Received α ρ)
  | spawn (x : Received α ρ)
  | spawnErr (x : Received α ρ)
  | drop (pc : DropPc) (again spurious : Bool)
  | abort
  | abortReceiving
  | handlerEnd (i : ℕ) (x : Item β)
  | handlerDrop (i : ℕ) (pc : DropPc) (spurious : Bool)
deriving DecidableEq, Repr

variable {α ρ β : Type}

/-- `is_active` returned `true`: the loop goes on. -/
def Worker.proceed (k : Worker α ρ β) : Site (Received α ρ) → Worker α ρ β
  | .head => { k with pc := .acquiring .load }
  | .permit => { k with pc := .receiving }
  | .error => { k with buffer := newBuffer, pc := .dropping .load true }
  | .item x => { k with pc := .spawning x }

/-- `is_active` returned `false`: the loop is left, with the permit if it has
one. -/
def Site.leave {κ : Type} : Site κ → Pc κ
  | .head => .exited
  | .permit => .dropping .load false
  | .error => .dropping .load false
  | .item _ => .dropping .load false

/-- One load of `is_active`, with the value it yields. -/
def Worker.load (k : Worker α ρ β) (site : Site (Received α ρ)) : Check → Bool → Worker α ρ β
  | _, false => { k with pc := site.leave }
  | .runtime, true => { k with pc := .check .server site }
  | .server, true => k.proceed site

def Worker.polled (k : Worker α ρ β) : WorkerConcurrencyLimit × Option PollPc → Worker α ρ β
  | (limit, some pc) => { k with limit := limit, pc := .acquiring pc }
  | (limit, none) => { k with limit := limit, pc := .check .runtime .permit }

def Worker.dropped (k : Worker α ρ β) (again : Bool) :
    WorkerConcurrencyLimit × Option DropPc → Worker α ρ β
  | (limit, some pc) => { k with limit := limit, pc := .dropping pc again }
  | (limit, none) =>
      { k with limit := limit, pc := if again then .check .runtime .head else .exited }

/-- The item that the loop hands to the handler. -/
def itemOf (L : NativeLoop α ρ β) (k : Worker α ρ β) (x : Received α ρ) : Item β :=
  ⟨L.work k.buffer x.recv, x.origin⟩

/-- A task can be aborted only where it awaits, and only by `close` or by the
shutdown of the worker thread, which both follow the store to their flag. -/
def guard (L : NativeLoop α ρ β) (n : ℕ) : Lbl α ρ β → Flags → Worker α ρ β → Prop
  | .start, _, k => k.pc = .submitted
  | .startErr, _, k => k.pc = .submitted
  | .load c site, _, k => k.pc = .check c site
  | .poll pc _, _, k => k.pc = .acquiring pc
  | .recv origin a, f, k =>
      k.pc = .receiving ∧ (origin = .wakeUp → f.wakeSent = true ∧ L.wakeUp a = true)
  | .recvErr, _, k => k.pc = .receiving
  | .reject x, _, k => k.pc = .spawning x ∧ L.accepts k.buffer x.recv n = false
  | .spawn x, _, k => k.pc = .spawning x ∧ L.accepts k.buffer x.recv n = true
  | .spawnErr x, _, k => k.pc = .spawning x ∧ L.accepts k.buffer x.recv n = true
  | .drop pc again _, _, k => k.pc = .dropping pc again
  | .abort, f, k => ¬ f.isActive ∧ (k.pc = .submitted ∨ k.pc = .acquiring .pending)
  | .abortReceiving, f, k => ¬ f.isActive ∧ k.pc = .receiving
  | .handlerEnd i x, _, k => k.handlers[i]? = some (.running x)
  | .handlerDrop i pc _, _, k => k.handlers[i]? = some (.dropping pc)

def update (L : NativeLoop α ρ β) : Lbl α ρ β → Flags → Worker α ρ β → Worker α ρ β
  | .start, _, k => { k with pc := .check .runtime .head }
  | .startErr, _, k => { k with pc := .exited }
  | .load c site, f, k => k.load site c (f.get c)
  | .poll pc spurious, _, k => k.polled (k.limit.poll spurious pc)
  | .recv origin a, _, k =>
      { k with
        buffer := (L.receive k.buffer a).1
        pc := .check .runtime (.item ⟨a, (L.receive k.buffer a).2, origin⟩) }
  | .recvErr, _, k =>
      { k with
        pc := if L.retriesOnError then .check .runtime .error else .dropping .load false }
  | .reject _, _, k => { k with pc := .dropping .load true }
  | .spawn x, _, k =>
      { k with
        pc := .check .runtime .head
        handlers := .running (itemOf L k x) :: k.handlers
        spawned := k.spawned ++ [itemOf L k x] }
  | .spawnErr _, _, k => { k with pc := .dropping .load false }
  | .drop pc again spurious, _, k => k.dropped again (k.limit.drop spurious pc)
  | .abort, _, k => { k with pc := .exited }
  | .abortReceiving, _, k => { k with pc := .dropping .load false }
  | .handlerEnd i _, _, k => { k with handlers := k.handlers.set i (.dropping .load) }
  | .handlerDrop i pc spurious, _, k =>
      { k with
        limit := (k.limit.drop spurious pc).1
        handlers := Handler.set k.handlers i (k.limit.drop spurious pc).2 }

/-- A worker whose task has just been submitted. -/
def Worker.initial (max : Option ℕ) : Worker α ρ β :=
  ⟨.submitted, newBuffer, .new max, [], []⟩

/-- The listener task of one of `n` workers. -/
def proc (L : NativeLoop α ρ β) (n : ℕ) (max : Option ℕ) :
    Lts.Proc Flags (Worker α ρ β) FlagLbl (Lbl α ρ β) where
  env := .initial
  start := .initial max
  envGuard := FlagLbl.guard
  envUpdate := FlagLbl.update
  guard := guard L n
  update := update L

/-- The server with `n` workers and a limit of `max` handlers on each. -/
def server (L : NativeLoop α ρ β) (n : ℕ) (max : Option ℕ) :
    Lts.Sys (Lts.Fleet Flags (Worker α ρ β)) (Lts.FleetLbl FlagLbl (Lbl α ρ β)) :=
  (proc L n max).fleet n

instance (L : NativeLoop α ρ β) (n : ℕ) [DecidableEq α] [DecidableEq ρ] [DecidableEq β] :
    ∀ l f k, Decidable (guard L n l f k)
  | .start, _, _ => inferInstanceAs (Decidable (_ = _))
  | .startErr, _, _ => inferInstanceAs (Decidable (_ = _))
  | .load _ _, _, _ => inferInstanceAs (Decidable (_ = _))
  | .poll _ _, _, _ => inferInstanceAs (Decidable (_ = _))
  | .recv _ _, _, _ => inferInstanceAs (Decidable (_ = _ ∧ (_ = _ → _ = _ ∧ _ = _)))
  | .recvErr, _, _ => inferInstanceAs (Decidable (_ = _))
  | .reject _, _, _ => inferInstanceAs (Decidable (_ = _ ∧ _ = _))
  | .spawn _, _, _ => inferInstanceAs (Decidable (_ = _ ∧ _ = _))
  | .spawnErr _, _, _ => inferInstanceAs (Decidable (_ = _ ∧ _ = _))
  | .drop _ _ _, _, _ => inferInstanceAs (Decidable (_ = _))
  | .abort, _, _ => inferInstanceAs (Decidable (¬ Flags.isActive _ ∧ (_ = _ ∨ _ = _)))
  | .abortReceiving, _, _ => inferInstanceAs (Decidable (¬ Flags.isActive _ ∧ _ = _))
  | .handlerEnd _ _, _, _ => inferInstanceAs (Decidable (_ = _))
  | .handlerDrop _ _ _, _, _ => inferInstanceAs (Decidable (_ = _))

instance (L : NativeLoop α ρ β) (n : ℕ) (max : Option ℕ) [DecidableEq α] [DecidableEq ρ]
    [DecidableEq β] (l : Lts.FleetLbl FlagLbl (Lbl α ρ β))
    (s : Lts.Fleet Flags (Worker α ρ β)) : Decidable ((server L n max).guard l s) :=
  match l with
  | .env e => inferInstanceAs (Decidable (FlagLbl.guard e s.env))
  | .proc w l => inferInstanceAs (Decidable (w < n ∧ guard L n l s.env (s.proc w)))

end Native

end ReusePort
