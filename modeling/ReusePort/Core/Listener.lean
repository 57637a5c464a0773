import ReusePort.Core.Concurrency
import ReusePort.Core.Net

/-!
# ReusePort.Core.Listener — what the listener loops have in common

The crate has eight loops that turn arrivals into handlers: `tcp.rs`, `udp.rs`
and `quic.rs` each have a native loop (one per worker) and a simulated one (one
per server), and two dispatch loops. They share how they receive (`Receiver`),
the two flags that `is_active` loads (`Flags`), and what happens to a spawned
handler (`Handler`). What differs is the value of a few fields, given here for
TCP and for UDP.
-/

namespace ReusePort

/-! ## Flags -/

/-- The two flags of `is_active`, and whether `close` has come to the point of
sending its wake-up datagrams. The number of these is not tracked: any loop may
receive any number of them from then on. -/
structure Flags where
  runtimeActive : Bool
  serverActive : Bool
  wakeSent : Bool
deriving DecidableEq, Repr

/-- `is_active` is two loads, in this order. -/
inductive Check where
  | runtime
  | server
deriving DecidableEq, Repr

namespace Flags

def initial : Flags := ⟨true, true, false⟩

/-- One load of `is_active`. -/
def get (f : Flags) : Check → Bool
  | .runtime => f.runtimeActive
  | .server => f.serverActive

/-- Both flags still hold: neither `close` nor the drop of the runtime has
stored `false`. -/
def isActive (f : Flags) : Prop := f.runtimeActive = true ∧ f.serverActive = true

instance (f : Flags) : Decidable f.isActive := inferInstanceAs (Decidable (_ ∧ _))

end Flags

/-- The steps that other threads take on the flags: the drop of the runtime, the
store of `close`, and its wake-up datagrams, which follow the store. -/
inductive FlagLbl where
  | runtimeDrop
  | closeStore
  | closeWake
deriving DecidableEq, Repr

namespace FlagLbl

def guard : FlagLbl → Flags → Prop
  | .runtimeDrop, _ => True
  | .closeStore, _ => True
  | .closeWake, f => f.serverActive = false

def update : FlagLbl → Flags → Flags
  | .runtimeDrop, f => { f with runtimeActive := false }
  | .closeStore, f => { f with serverActive := false }
  | .closeWake, f => { f with wakeSent := true }

instance : ∀ l f, Decidable (guard l f)
  | .runtimeDrop, _ => inferInstanceAs (Decidable True)
  | .closeStore, _ => inferInstanceAs (Decidable True)
  | .closeWake, _ => inferInstanceAs (Decidable (_ = _))

/-- The flags never come back: a server that is active now was active before. -/
theorem isActive_of_update {l : FlagLbl} {f : Flags} (h : (update l f).isActive) :
    f.isActive := by
  cases l
  · exact absurd h.1 (by simp [update])
  · exact absurd h.2 (by simp [update])
  · exact h

theorem serverActive_update {l : FlagLbl} {f : Flags} (h : f.serverActive = false) :
    (update l f).serverActive = false := by
  cases l <;> simp [update, h]

end FlagLbl

/-- A wake-up datagram is in flight only after the store of `close`. -/
def Flags.Causal (f : Flags) : Prop := f.wakeSent = true → f.serverActive = false

theorem Flags.causal_update {l : FlagLbl} {f : Flags} (hg : FlagLbl.guard l f) (h : f.Causal) :
    (FlagLbl.update l f).Causal := by
  cases l
  · exact h
  · intro _
    rfl
  · intro _
    exact hg

/-! ## Arrivals and work items -/

/-- Where an arrival comes from. The tag is not in the packet; the model carries
it along to speak about the wake-up datagrams of `close`. -/
inductive Origin where
  | peer
  | wakeUp
deriving DecidableEq, Repr

/-- What a loop has in hand after a successful receive: the arrival itself (the
model's own record), and what the receive call returned. -/
structure Received (α ρ : Type) where
  arrival : α
  recv : ρ
  origin : Origin
deriving DecidableEq, Repr

/-- A work item on its way to a handler. -/
structure Item (β : Type) where
  work : β
  origin : Origin
deriving DecidableEq, Repr

/-- How a loop receives. `receive` is the effect of a successful receive on the
loop's buffer and what it returns, `work` the work item that the loop builds
from these. `item` says what the work item of an arrival should be, and the laws
tie the two together for every content of the reused buffer. -/
structure Receiver (α ρ β : Type) where
  receive : List UInt8 → α → List UInt8 × ρ
  work : List UInt8 → ρ → β
  item : α → β
  /-- A failed receive is followed by a re-check of the flags and another turn;
  otherwise the loop ends. -/
  retriesOnError : Bool
  /-- The arrival could be a wake-up datagram. -/
  wakeUp : α → Bool
  length_receive : ∀ buffer a, (receive buffer a).1.length = buffer.length
  work_receive : ∀ buffer a, buffer.length = bufferLen →
    work (receive buffer a).1 (receive buffer a).2 = item a

/-- An item in hand is fresh: the buffer and the result are as the receive left
them. -/
def Receiver.Fresh {α ρ β : Type} (R : Receiver α ρ β) (buffer : List UInt8)
    (x : Received α ρ) : Prop :=
  ∃ before, before.length = bufferLen ∧ buffer = (R.receive before x.arrival).1 ∧
    x.recv = (R.receive before x.arrival).2

/-- The work item that the loop builds from the buffer is the one of the arrival. -/
theorem Receiver.Fresh.work {α ρ β : Type} {R : Receiver α ρ β} {buffer : List UInt8}
    {x : Received α ρ} (h : R.Fresh buffer x) : R.work buffer x.recv = R.item x.arrival := by
  rcases h with ⟨before, hlen, rfl, hrecv⟩
  rw [hrecv]
  exact R.work_receive before x.arrival hlen

/-! ## Handlers -/

/-- A spawned handler task: running with its permit, or dropping the permit at
its end. A task that is aborted or panics drops it too. -/
inductive Handler (β : Type) where
  | running (x : Item β)
  | dropping (pc : DropPc)
deriving DecidableEq, Repr

namespace Handler

variable {β : Type}

def share : Handler β → Share
  | .running _ => .idle
  | .dropping pc => .dropping pc

/-- The handler after one atomic access of its drop, if it is still there. -/
def set (handlers : List (Handler β)) (i : ℕ) : Option DropPc → List (Handler β)
  | some pc => List.set handlers i (.dropping pc)
  | none => handlers.eraseIdx i

/-- The handlers of a worker. -/
def total (handlers : List (Handler β)) : Share := (handlers.map share).sum

@[simp] theorem total_nil : total ([] : List (Handler β)) = 0 := rfl

theorem total_cons (x : Handler β) (handlers : List (Handler β)) :
    total (x :: handlers) = x.share + total handlers :=
  List.sum_cons

/-- How many handlers run. -/
def runningCount : List (Handler β) → ℕ
  | [] => 0
  | .running _ :: handlers => runningCount handlers + 1
  | .dropping _ :: handlers => runningCount handlers

/-- Every running handler has a live permit. -/
theorem runningCount_le (handlers : List (Handler β)) :
    runningCount handlers ≤ (total handlers).live := by
  induction handlers with
  | nil => exact Nat.zero_le _
  | cons x handlers ih =>
      rw [total_cons, Share.live_add]
      cases x with
      | running x =>
          simp only [runningCount, share, Share.live_idle]
          omega
      | dropping pc =>
          simp only [runningCount]
          omega

theorem total_running {handlers : List (Handler β)} {i : ℕ} {x : Item β}
    (h : handlers[i]? = some (.running x)) :
    total handlers = .idle + total (handlers.eraseIdx i) :=
  Lts.sum_map_getElem share h

theorem total_dropping {handlers : List (Handler β)} {i : ℕ} {pc : DropPc}
    (h : handlers[i]? = some (.dropping pc)) :
    total handlers = .dropping pc + total (handlers.eraseIdx i) :=
  Lts.sum_map_getElem share h

theorem total_set {handlers : List (Handler β)} {i : ℕ} {x : Handler β}
    (h : handlers[i]? = some x) (next : Option DropPc) :
    total (set handlers i next) = .dropped next + total (handlers.eraseIdx i) := by
  cases next with
  | none => exact (zero_add _).symm
  | some pc => exact Lts.sum_map_set share h (.dropping pc)

/-- The item of a handler that runs. -/
def item : Handler β → Multiset β
  | .running x => {x.work}
  | .dropping _ => 0

/-- The permit of a handler that has ended and not given it back yet. -/
def ending : Handler β → ℕ
  | .running _ => 0
  | .dropping pc => if pc.live then 1 else 0

/-- The items of the handlers that run. -/
def items (handlers : List (Handler β)) : Multiset β := (handlers.map item).sum

/-- How many handlers have ended and still have their permit. -/
def endings : List (Handler β) → ℕ
  | [] => 0
  | x :: handlers => x.ending + endings handlers

theorem items_cons (x : Handler β) (handlers : List (Handler β)) :
    items (x :: handlers) = x.item + items handlers :=
  List.sum_cons

theorem endings_cons (x : Handler β) (handlers : List (Handler β)) :
    endings (x :: handlers) = x.ending + endings handlers :=
  rfl

theorem live_share (x : Handler β) : x.share.live = x.item.card + x.ending := by
  cases x with
  | running x => rfl
  | dropping pc => cases pc <;> rfl

/-- The live permits of the handlers are those of the handlers that run and of those that
have ended. -/
theorem live_total (handlers : List (Handler β)) :
    (total handlers).live = (items handlers).card + endings handlers := by
  induction handlers with
  | nil => rfl
  | cons x handlers ih =>
      rw [total_cons, items_cons, endings_cons, Share.live_add, Multiset.card_add, ih, live_share]
      omega

/-- A handler that is dropping its permit, or one that ends, has no item. -/
theorem items_set {handlers : List (Handler β)} {i : ℕ} {x : Handler β}
    (h : handlers[i]? = some x) (next : Option DropPc) :
    items (set handlers i next) = items (handlers.eraseIdx i) := by
  cases next with
  | none => rfl
  | some pc => exact (Lts.sum_map_set item h (.dropping pc)).trans (zero_add _)

theorem items_getElem {handlers : List (Handler β)} {i : ℕ} {x : Handler β}
    (h : handlers[i]? = some x) : items handlers = x.item + items (handlers.eraseIdx i) :=
  Lts.sum_map_getElem item h

theorem endings_perm {handlers handlers' : List (Handler β)} (h : handlers.Perm handlers') :
    endings handlers = endings handlers' := by
  induction h with
  | nil => rfl
  | cons x _ ih => rw [endings_cons, endings_cons, ih]
  | swap x y handlers =>
      simp only [endings_cons]
      omega
  | trans _ _ ih ih' => exact ih.trans ih'

theorem endings_getElem {handlers : List (Handler β)} {i : ℕ} {x : Handler β}
    (h : handlers[i]? = some x) :
    endings handlers = x.ending + endings (handlers.eraseIdx i) := by
  obtain ⟨hi, rfl⟩ := List.getElem?_eq_some_iff.mp h
  exact (endings_perm (List.getElem_cons_eraseIdx_perm hi)).symm

theorem endings_set {handlers : List (Handler β)} {i : ℕ} {x : Handler β}
    (h : handlers[i]? = some x) (next : Option DropPc) :
    endings (set handlers i next) =
      (next.elim 0 fun pc => if pc.live then 1 else 0) + endings (handlers.eraseIdx i) := by
  cases next with
  | none => exact (Nat.zero_add _).symm
  | some pc =>
      obtain ⟨hi, -⟩ := List.getElem?_eq_some_iff.mp h
      exact endings_perm (List.set_perm_cons_eraseIdx hi (.dropping pc))

/-- An access of a drop does not bring a permit back to life. -/
theorem live_drop (limit : WorkerConcurrencyLimit) (spurious : Bool) (pc : DropPc) :
    ((limit.drop spurious pc).2.elim 0 fun pc => if pc.live then 1 else 0) ≤
      if pc.live then 1 else 0 := by
  have hle : ∀ pc : DropPc, (if pc.live then 1 else 0) ≤ 1 := by
    intro pc
    split <;> decide
  cases limit with
  | none => exact Nat.zero_le _
  | some c =>
      cases pc with
      | load => exact hle _
      | cas active =>
          simp only [WorkerConcurrencyLimit.drop, dropStep]
          cases c.compareExchangeWeak active (active - 1) spurious with
          | none => exact hle _
          | some c' => exact Nat.zero_le _
      | wake | gaveUp => exact Nat.zero_le _

/-- One access of the drop of the `i`-th handler: no item is touched, and at most one permit
is given back. -/
theorem set_drop {handlers : List (Handler β)} {i : ℕ} {pc : DropPc}
    (h : handlers[i]? = some (.dropping pc)) (limit : WorkerConcurrencyLimit) (spurious : Bool) :
    items (set handlers i (limit.drop spurious pc).2) = items handlers ∧
      endings (set handlers i (limit.drop spurious pc).2) ≤ endings handlers ∧
      endings handlers ≤ endings (set handlers i (limit.drop spurious pc).2) + 1 := by
  have hlive := live_drop limit spurious pc
  have hone : (if pc.live then 1 else 0) ≤ 1 := by split <;> decide
  refine ⟨?_, ?_, ?_⟩
  · rw [items_set h, items_getElem h]
    exact (zero_add _).symm
  · rw [endings_set h, endings_getElem h]
    exact Nat.add_le_add_right hlive _
  · rw [endings_set h, endings_getElem h, ending]
    omega

/-- The `i`-th handler ends: its item is done, and its permit is about to be dropped. -/
theorem set_end {handlers : List (Handler β)} {i : ℕ} {x : Item β}
    (h : handlers[i]? = some (.running x)) :
    items handlers = x.work ::ₘ items (handlers.set i (.dropping .load)) ∧
      endings (handlers.set i (.dropping .load)) = endings handlers + 1 := by
  constructor
  · refine (items_getElem h).trans ?_
    exact congrArg (x.work ::ₘ ·) (items_set h (some .load)).symm
  · have hbefore : endings handlers = endings (handlers.eraseIdx i) :=
      (endings_getElem h).trans (zero_add _)
    rw [hbefore, add_comm]
    exact endings_set h (some .load)

end Handler

/-! ## Close

What the spawning loops have in common about `close`, whatever the states `κ` of
a worker: `spawned` are the items for which it has spawned a handler, `checked`
those for which it has passed its last check of the flag. -/

/-- The server's flag was cleared when the worker was at `k₀`: what has been
spawned since then, and what is past the check now, was past the check then. -/
def CloseInv {κ β : Type} (spawned checked : κ → List (Item β)) (k₀ : κ) (f : Flags) (k : κ) :
    Prop :=
  f.serverActive = false ∧
    ∃ later, spawned k = spawned k₀ ++ later ∧ later ++ checked k <+: checked k₀

namespace CloseInv

variable {κ β : Type} {spawned checked : κ → List (Item β)} {k₀ k k' : κ} {f : Flags}

theorem refl (h : f.serverActive = false) : CloseInv spawned checked k₀ f k₀ :=
  ⟨h, [], by simp, by simp⟩

theorem flags (h : CloseInv spawned checked k₀ f k) (l : FlagLbl) :
    CloseInv spawned checked k₀ (l.update f) k :=
  ⟨FlagLbl.serverActive_update h.1, h.2⟩

/-- A step that spawns nothing and leaves the item past the check, if there is
one, or drops it. -/
theorem quiet (h : CloseInv spawned checked k₀ f k) (hspawned : spawned k' = spawned k)
    (hchecked : checked k' = checked k ∨ checked k' = []) :
    CloseInv spawned checked k₀ f k' := by
  rcases h with ⟨hf, later, hsp, hpre⟩
  refine ⟨hf, later, hspawned.trans hsp, ?_⟩
  rcases hchecked with hsame | hnone
  · rw [hsame]
    exact hpre
  · rw [hnone, List.append_nil]
    exact (List.prefix_append _ _).trans hpre

/-- The step that spawns the item past the check. -/
theorem spawn (h : CloseInv spawned checked k₀ f k) (hspawned : spawned k' = spawned k ++ checked k)
    (hchecked : checked k' = []) : CloseInv spawned checked k₀ f k' := by
  rcases h with ⟨hf, later, hsp, hpre⟩
  refine ⟨hf, later ++ checked k, ?_, ?_⟩
  · rw [hspawned, hsp, List.append_assoc]
  · rw [hchecked, List.append_nil]
    exact hpre

end CloseInv

/-! ## UDP -/

/-- What `recv_packet_with_local_addr` returns besides the buffer. -/
structure UdpRecv where
  len : ℕ
  peerAddr : SocketAddr
  localAddr : SocketAddr
deriving DecidableEq, Repr

/-- `UdpWorkItem`, without the socket handle (the same for every item) and the
permit (which the model keeps with the limit). -/
structure UdpWorkItem where
  packetMeta : PacketMeta
  payload : List UInt8
deriving DecidableEq, Repr

/-- A successful receive: the kernel copies the datagram into the buffer. -/
def udpReceive (buffer : List UInt8) (d : Datagram) : List UInt8 × UdpRecv :=
  ((copyPrefix d.payload buffer).1, ⟨(copyPrefix d.payload buffer).2, d.peerAddr, d.localAddr⟩)

theorem length_udpReceive (buffer : List UInt8) (d : Datagram) :
    (udpReceive buffer d).1.length = buffer.length := by
  simp [udpReceive]

/-- `&buffer[..len]` after the receive is the payload of the datagram. -/
theorem take_udpReceive {buffer : List UInt8} (d : Datagram) (h : buffer.length = bufferLen) :
    (udpReceive buffer d).1.take (udpReceive buffer d).2.len = d.payload :=
  take_copyPrefix (d.fits h)

/-- The sources of the wake-up datagrams: `Ipv4Addr::LOCALHOST` and
`Ipv6Addr::LOCALHOST`. -/
def localhostV4 : IpAddr := .v4 Ipv4Addr.localhost

@[inherit_doc localhostV4]
def localhostV6 : IpAddr := .v6 Ipv6Addr.localhost

/-- The datagrams that `wake_udp_socket` sends: one zero byte, from a socket that
is bound to the loopback address. -/
def isWakeUp (d : Datagram) : Bool :=
  d.payload = [0] ∧ (d.peerAddr.ip = localhostV4 ∨ d.peerAddr.ip = localhostV6)

/-- The UDP loops; `localAddr` is what the loop puts into the metadata. -/
def udpReceiver (localAddr : SocketAddr → Option SocketAddr) :
    Receiver Datagram UdpRecv UdpWorkItem where
  receive := udpReceive
  work := fun buffer r => ⟨⟨some r.peerAddr, localAddr r.localAddr⟩, buffer.take r.len⟩
  item := fun d => ⟨⟨some d.peerAddr, localAddr d.localAddr⟩, d.payload⟩
  retriesOnError := true
  wakeUp := isWakeUp
  length_receive := length_udpReceive
  work_receive := by
    intro buffer d h
    rw [take_udpReceive d h]
    rfl

/-! ## TCP -/

/-- An accepted connection: the stream, by its descriptor, and the peer. -/
structure Connection where
  stream : ℕ
  peerAddr : SocketAddr
deriving DecidableEq, Repr

/-- `TcpWorkItem`, without the permit. -/
structure TcpWorkItem where
  stream : ℕ
deriving DecidableEq, Repr

/-- The TCP loops have no buffer, end on a failed accept, and are not woken by a
connection of the server's own. -/
def tcpReceiver : Receiver Connection Connection TcpWorkItem where
  receive := fun buffer c => (buffer, c)
  work := fun _ c => ⟨c.stream⟩
  item := fun c => ⟨c.stream⟩
  retriesOnError := false
  wakeUp := fun _ => false
  length_receive := by
    intro buffer c
    rfl
  work_receive := by
    intro buffer c _
    rfl

end ReusePort
