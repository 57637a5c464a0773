import ReusePort.Core.Routed

/-!
# ReusePort.Core.PolledReceive — receiving from a routed socket

Any clone of a routed `UdpSocket` (`core/udp.rs`) can receive. `recv_from` awaits
`recv_packet`; `poll_recv_from` polls once: `poll_recv_packet` makes the futures that
`recv_packet` would await, polls them, and drops them when it returns. A task that is
told `Pending` sleeps until its waker is called, so it matters where the poll has left it.

That is up to the runtime. With tokio the receiving end of the channel is behind a
`Mutex`, with async-std it is not; neither the lock nor the channels are part of the
repository. Here the lock is a parameter, `Mutex`, and so is what a channel does with
wakers, `Wakers`. What is assumed of them is named, and stated over a view of their
state:

* `Mutex.Fair` — the lock is given in the order of the first polls, and a lock future
  that is dropped leaves the line and takes its waker along;
* `Wakers.KeepsLast` — the channel keeps the waker of the last pending `recv()`, also
  when the future is gone; this is the `AtomicWaker` of tokio's channel;
* `Wakers.OwnListeners` — every pending `recv()` future has a listener of its own, which
  goes with the future and passes its notification on; these are the listeners of the
  channel of async-std.

The packets of a channel are a bounded queue. One poll of a `recv()` or of a `lock()` is
one step, and so is the drop of a future or of a guard.

* `TokioSocket.socket`, `AsyncStdSocket.socket` — the socket with its tasks;
* `Socket.Stalled` — there is something to receive and somebody sleeps in a receive, but
  nobody is awake to take it.
-/

namespace ReusePort.PolledReceive

/-! ## Readers -/

/-- Where a task stands in a receive on the socket. -/
inductive Reader where
  | idle
  /-- `poll_recv_packet` has the lock and polls `recv()` next. -/
  | polling
  /-- `poll_recv_packet` returns `Pending`, but the future that was pending still exists. -/
  | refused
  /-- `poll_recv_packet` has returned `Pending`. -/
  | pending
  /-- `recv_packet` awaits the lock. -/
  | queued
  /-- `recv_packet` has the lock and polls `recv()` next. -/
  | receiving
  /-- `recv_packet` awaits `recv()`. -/
  | suspended
  /-- The receive is over, but for the drop of its guard; `none` is `Pending`. -/
  | leaving (result : Option (Except IoError RoutedPacket))
deriving DecidableEq, Repr

/-- The task waits for a wake-up. -/
def Reader.waits : Reader → Bool
  | .pending | .queued | .suspended => true
  | _ => false

/-- The task runs code of the receive. -/
def Reader.runs : Reader → Bool
  | .polling | .refused | .receiving | .leaving _ => true
  | _ => false

/-- With tokio, the task has the lock. -/
def Reader.holds : Reader → Bool
  | .polling | .receiving | .suspended | .leaving _ => true
  | _ => false

/-- With tokio, the task has the lock or waits for it. -/
def Reader.inLine : Reader → Bool
  | .idle | .pending => false
  | _ => true

/-- The receive is one of `poll_recv_from`. -/
def Reader.polled : Reader → Bool
  | .polling | .refused | .pending | .leaving none => true
  | _ => false

/-- The channel, and the tasks that receive. `woken` says whose waker has been called since
the last poll; `returned` lists what the receives have returned. -/
structure Socket where
  channel : List RoutedPacket
  closed : Bool
  reader : ℕ → Reader
  woken : ℕ → Bool
  returned : List (ℕ × Except IoError RoutedPacket)

namespace Socket

def initial : Socket where
  channel := []
  closed := false
  reader := fun _ => .idle
  woken := fun _ => false
  returned := []

/-- What a poll of the channel's `recv()` is ready with. -/
def ready (s : Socket) : Option (Except IoError RoutedPacket) :=
  match s.channel with
  | packet :: _ => some (.ok packet)
  | [] => if s.closed then some (.error ⟨.unexpectedEof, "routed UDP socket closed"⟩) else none

def Asleep (s : Socket) (t : ℕ) : Prop := (s.reader t).waits = true ∧ s.woken t = false

def Awake (s : Socket) (t : ℕ) : Prop :=
  (s.reader t).runs = true ∨ ((s.reader t).waits = true ∧ s.woken t = true)

/-- A lost wake-up. -/
def Stalled (s : Socket) : Prop :=
  s.ready ≠ none ∧ (∃ t, s.Asleep t) ∧ ∀ t, ¬ s.Awake t

theorem ready_eq_none {s : Socket} : s.ready = none ↔ s.channel = [] ∧ s.closed = false := by
  rcases s with ⟨_ | ⟨packet, rest⟩, _ | _, _, _, _⟩ <;> simp [ready]

/-- One task sleeps and the others are elsewhere. -/
theorem stalled_of_reader {s : Socket} {t : ℕ} (hready : s.ready ≠ none)
    (hwoken : s.woken t = false)
    (hreader : ∀ u, s.reader u = if u = t then .pending else .idle) : s.Stalled := by
  refine ⟨hready, ⟨t, ?_, hwoken⟩, ?_⟩
  · rw [hreader, if_pos rfl]
    rfl
  · intro u
    unfold Awake
    rw [hreader]
    split
    · rename_i hu
      rw [hu, hwoken]
      rintro (hruns | hwaits)
      · cases hruns
      · exact absurd hwaits.2 Bool.false_ne_true
    · rintro (hruns | hwaits)
      · cases hruns
      · exact absurd hwaits.1 Bool.false_ne_true

end Socket

/-! ## The lock and the channels -/

/-- The wakers of some tasks are called. -/
def wake (woken : ℕ → Bool) (tasks : List ℕ) : ℕ → Bool :=
  fun t => woken t || decide (t ∈ tasks)

/-- `tokio::sync::Mutex`. A poll of a `lock()` future of a task says if it is ready, a drop says
whose wakers it calls. -/
structure Mutex (Λ : Type) where
  new : Λ
  /-- The first poll of a future. -/
  poll (t : ℕ) : Λ → Λ × Bool
  /-- The next poll of a future that was pending. -/
  repoll (t : ℕ) : Λ → Λ × Bool
  /-- The drop of a future that was pending. -/
  dropFuture (t : ℕ) : Λ → Λ × List ℕ
  dropGuard (t : ℕ) : Λ → Λ × List ℕ

/-- What a channel does with the wakers of its receivers: a `recv()` future of a task is pending
or is dropped, a packet is pushed, the last sender is dropped. The lists are the tasks whose
wakers are called. -/
structure Wakers (κ : Type) where
  new : κ
  pending (t : ℕ) : κ → κ
  drop (t : ℕ) : κ → κ × List ℕ
  push : κ → κ × List ℕ
  close : κ → κ × List ℕ

/-- Who is to be woken when `t` leaves a line: if it was the first, the next one. -/
def nextInLine (line : List ℕ) (t : ℕ) : List ℕ :=
  if line.head? = some t then line.tail.head?.toList else []

/-- The lock is fair: `line` is its holder and behind it the futures that wait, in the order in
which they get it, and who leaves the line gives the lock to the next. -/
structure Mutex.Fair {Λ : Type} (M : Mutex Λ) (line : Λ → List ℕ) : Prop where
  new : line M.new = []
  line_poll : ∀ t m, line (M.poll t m).1 = line m ++ [t]
  poll_ready : ∀ t m, (M.poll t m).2 = true ↔ line m = []
  line_repoll : ∀ t m, line (M.repoll t m).1 = line m
  repoll_ready : ∀ t m, (M.repoll t m).2 = true ↔ (line m).head? = some t
  line_dropFuture : ∀ t m, line (M.dropFuture t m).1 = (line m).erase t
  dropFuture_wakes : ∀ t m, (M.dropFuture t m).2 = nextInLine (line m) t
  line_dropGuard : ∀ t m, line (M.dropGuard t m).1 = (line m).erase t
  dropGuard_wakes : ∀ t m, (M.dropGuard t m).2 = nextInLine (line m) t

/-- The channel keeps one waker, that of the last `recv()` that was pending, until it calls it;
the drop of the future does not take it away. -/
structure Wakers.KeepsLast {κ : Type} (R : Wakers κ) (waker : κ → Option ℕ) : Prop where
  new : waker R.new = none
  pending : ∀ t k, waker (R.pending t k) = some t
  waker_drop : ∀ t k, waker (R.drop t k).1 = waker k
  drop_wakes : ∀ t k, (R.drop t k).2 = []
  waker_push : ∀ k, waker (R.push k).1 = none
  push_wakes : ∀ k, (R.push k).2 = (waker k).toList
  waker_close : ∀ k, waker (R.close k).1 = none
  close_wakes : ∀ k, (R.close k).2 = (waker k).toList

/-- The listeners of the pending `recv()` futures, by their tasks: those that wait for a
notification, in order, and those that have got one. -/
structure Listeners where
  waiting : List ℕ
  notified : List ℕ
deriving DecidableEq, Repr

namespace Listeners

/-- The first listener that waits is notified, and its task is woken. -/
def notify (v : Listeners) : Listeners × List ℕ :=
  match v.waiting with
  | [] => (v, [])
  | t :: rest => (⟨rest, v.notified ++ [t]⟩, [t])

/-- The drop of the listener of `t`, if there is one; a notification is passed on. -/
def drop (v : Listeners) (t : ℕ) : Listeners × List ℕ :=
  if t ∈ v.notified then notify ⟨v.waiting, v.notified.erase t⟩
  else (⟨v.waiting.erase t, v.notified⟩, [])

/-- A pending poll: a listener that was notified is used up, and the next one is at the end of
the list. -/
def pending (v : Listeners) (t : ℕ) : Listeners :=
  if t ∈ v.waiting then v else ⟨v.waiting ++ [t], v.notified.erase t⟩

/-- All listeners are notified. -/
def close (v : Listeners) : Listeners × List ℕ :=
  (⟨[], v.notified ++ v.waiting⟩, v.waiting)

end Listeners

/-- Every pending `recv()` future has a listener of its own. A packet notifies one of them. -/
structure Wakers.OwnListeners {κ : Type} (R : Wakers κ) (view : κ → Listeners) : Prop where
  new : view R.new = ⟨[], []⟩
  pending : ∀ t k, view (R.pending t k) = (view k).pending t
  view_drop : ∀ t k, view (R.drop t k).1 = ((view k).drop t).1
  drop_wakes : ∀ t k, (R.drop t k).2 = ((view k).drop t).2
  view_push : ∀ k, view (R.push k).1 = (view k).notify.1
  push_wakes : ∀ k, (R.push k).2 = (view k).notify.2
  view_close : ∀ k, view (R.close k).1 = (view k).close.1
  close_wakes : ∀ k, (R.close k).2 = (view k).close.2

/-! ### Locks and channels that meet the assumptions -/

/-- A lock that is its line. -/
def Mutex.line : Mutex (List ℕ) where
  new := []
  poll := fun t line => (line ++ [t], decide (line = []))
  repoll := fun t line => (line, decide (line.head? = some t))
  dropFuture := fun t line => (line.erase t, nextInLine line t)
  dropGuard := fun t line => (line.erase t, nextInLine line t)

theorem Mutex.fair_line : Mutex.line.Fair id := by
  constructor <;> intros <;> simp [Mutex.line]

/-- A channel that is its waker. -/
def Wakers.last : Wakers (Option ℕ) where
  new := none
  pending := fun t _ => some t
  drop := fun _ waker => (waker, [])
  push := fun waker => (none, waker.toList)
  close := fun waker => (none, waker.toList)

theorem Wakers.keepsLast_last : Wakers.last.KeepsLast id := by
  constructor <;> intros <;> rfl

/-- A channel that is its listeners. -/
def Wakers.listeners : Wakers Listeners where
  new := ⟨[], []⟩
  pending := fun t v => v.pending t
  drop := fun t v => v.drop t
  push := Listeners.notify
  close := Listeners.close

theorem Wakers.ownListeners_listeners : Wakers.listeners.OwnListeners id := by
  constructor <;> intros <;> rfl

/-! ## The tokio socket -/

namespace TokioSocket

variable {Λ κ : Type}

/-- The socket, with the state of its lock and of what the channel keeps of wakers. -/
structure St (Λ κ : Type) extends Socket where
  mutex : Λ
  wakers : κ

/-- The sender's steps, and those of a task `t`. -/
inductive Lbl where
  | push (packet : RoutedPacket)
  /-- The last sender is dropped. -/
  | close
  | pollLock (t : ℕ)
  /-- The lock future of `poll_recv_packet` is dropped. -/
  | dropLock (t : ℕ)
  | pollRecv (t : ℕ)
  | lock (t : ℕ)
  | relock (t : ℕ)
  | recv (t : ℕ)
  | release (t : ℕ) (result : Option (Except IoError RoutedPacket))
  /-- The future of `recv_packet` is dropped. -/
  | cancel (t : ℕ)
  /-- The task does not come back to a receive that was pending. -/
  | abandon (t : ℕ)
deriving DecidableEq, Repr

def guard (capacity : ℕ) : Lbl → Socket → Prop
  | .push _, s => s.closed = false ∧ s.channel.length < capacity
  | .close, s => s.closed = false
  | .pollLock t, s => s.reader t = .idle ∨ s.reader t = .pending
  | .dropLock t, s => s.reader t = .refused
  | .pollRecv t, s => s.reader t = .polling
  | .lock t, s => s.reader t = .idle
  | .relock t, s => s.reader t = .queued
  | .recv t, s => s.reader t = .receiving ∨ s.reader t = .suspended
  | .release t result, s => s.reader t = .leaving result
  | .cancel t, s => s.reader t = .queued ∨ s.reader t = .suspended
  | .abandon t, s => s.reader t = .pending

namespace St

/-- The first poll of a `lock()` future. -/
def pollLock (M : Mutex Λ) (s : St Λ κ) (t : ℕ) (locked waits : Reader) : St Λ κ :=
  { s with
    mutex := (M.poll t s.mutex).1
    reader := Function.update s.reader t (if (M.poll t s.mutex).2 then locked else waits)
    woken := Function.update s.woken t false }

/-- The drop of a `lock()` future that was pending. -/
def dropLock (M : Mutex Λ) (s : St Λ κ) (t : ℕ) : St Λ κ :=
  { s with
    mutex := (M.dropFuture t s.mutex).1
    woken := wake s.woken (M.dropFuture t s.mutex).2 }

/-- The drop of the `recv()` future, and then of the guard. -/
def dropRecv (M : Mutex Λ) (R : Wakers κ) (s : St Λ κ) (t : ℕ) : St Λ κ :=
  { s with
    wakers := (R.drop t s.wakers).1
    mutex := (M.dropGuard t s.mutex).1
    woken := wake (wake s.woken (R.drop t s.wakers).2) (M.dropGuard t s.mutex).2 }

/-- A poll of `recv()`. -/
def pollRecv (R : Wakers κ) (s : St Λ κ) (t : ℕ) (waits : Reader) : St Λ κ :=
  match s.ready with
  | some result =>
      { s with
        channel := s.channel.tail
        reader := Function.update s.reader t (.leaving (some result)) }
  | none =>
      { s with
        wakers := R.pending t s.wakers
        reader := Function.update s.reader t waits }

end St

def update (M : Mutex Λ) (R : Wakers κ) : Lbl → St Λ κ → St Λ κ
  | .push packet, s =>
      { s with
        channel := s.channel ++ [packet]
        wakers := (R.push s.wakers).1
        woken := wake s.woken (R.push s.wakers).2 }
  | .close, s =>
      { s with
        closed := true
        wakers := (R.close s.wakers).1
        woken := wake s.woken (R.close s.wakers).2 }
  | .pollLock t, s => s.pollLock M t .polling .refused
  | .dropLock t, s => { s.dropLock M t with reader := Function.update s.reader t .pending }
  | .pollRecv t, s => s.pollRecv R t (.leaving none)
  | .lock t, s => s.pollLock M t .receiving .queued
  | .relock t, s =>
      { s with
        mutex := (M.repoll t s.mutex).1
        reader :=
          if (M.repoll t s.mutex).2 then Function.update s.reader t .receiving else s.reader
        woken := Function.update s.woken t false }
  | .recv t, s => St.pollRecv R { s with woken := Function.update s.woken t false } t .suspended
  | .release t result, s =>
      { s.dropRecv M R t with
        reader := Function.update s.reader t (if result = none then .pending else .idle)
        returned := s.returned ++ (result.map (t, ·)).toList }
  | .cancel t, s =>
      -- the future is dropped where it awaits
      { (if s.reader t = .queued then s.dropLock M t else s.dropRecv M R t) with
        reader := Function.update s.reader t .idle }
  | .abandon t, s => { s with reader := Function.update s.reader t .idle }

def St.initial (M : Mutex Λ) (R : Wakers κ) : St Λ κ :=
  { Socket.initial with mutex := M.new, wakers := R.new }

/-- A socket that some tasks poll and some await. -/
def Lbl.Allowed (polls awaits : ℕ → Prop) : Lbl → Prop
  | .pollLock t => polls t
  | .lock t => awaits t
  | _ => True

/-- The socket, with the tasks that use `poll_recv_from` and those that use `recv_from`. -/
def socket (M : Mutex Λ) (R : Wakers κ) (capacity : ℕ) (polls awaits : ℕ → Prop) :
    Lts.Sys (St Λ κ) Lbl :=
  Lts.Sys.restrict ⟨.initial M R, fun l s => guard capacity l s.toSocket, update M R⟩
    fun l _ => l.Allowed polls awaits

end TokioSocket

/-! ## The async-std socket -/

namespace AsyncStdSocket

variable {κ : Type}

/-- The socket, with the state of what the channel keeps of wakers. -/
structure St (κ : Type) extends Socket where
  wakers : κ

inductive Lbl where
  | push (packet : RoutedPacket)
  /-- The last sender is dropped. -/
  | close
  | poll (t : ℕ)
  /-- The future of `poll_recv_packet` is dropped. -/
  | dropRecv (t : ℕ)
  | recv (t : ℕ)
  /-- The future of `recv_packet` is dropped. -/
  | cancel (t : ℕ)
  /-- The task does not come back to a receive that was pending. -/
  | abandon (t : ℕ)
deriving DecidableEq, Repr

def guard (capacity : ℕ) : Lbl → Socket → Prop
  | .push _, s => s.closed = false ∧ s.channel.length < capacity
  | .close, s => s.closed = false
  | .poll t, s => s.reader t = .idle ∨ s.reader t = .pending
  | .dropRecv t, s => s.reader t = .refused
  | .recv t, s => s.reader t = .idle ∨ s.reader t = .suspended
  | .cancel t, s => s.reader t = .suspended
  | .abandon t, s => s.reader t = .pending

namespace St

/-- The drop of a `recv()` future. -/
def dropRecv (R : Wakers κ) (s : St κ) (t : ℕ) : St κ :=
  { s with
    wakers := (R.drop t s.wakers).1
    woken := wake s.woken (R.drop t s.wakers).2 }

/-- A poll of `recv()`; a future that is ready is dropped. -/
def pollRecv (R : Wakers κ) (s : St κ) (t : ℕ) (waits : Reader) : St κ :=
  match s.ready with
  | some result =>
      dropRecv R
        { s with
          channel := s.channel.tail
          reader := Function.update s.reader t .idle
          returned := s.returned ++ [(t, result)] } t
  | none =>
      { s with
        wakers := R.pending t s.wakers
        reader := Function.update s.reader t waits }

end St

def update (R : Wakers κ) : Lbl → St κ → St κ
  | .push packet, s =>
      { s with
        channel := s.channel ++ [packet]
        wakers := (R.push s.wakers).1
        woken := wake s.woken (R.push s.wakers).2 }
  | .close, s =>
      { s with
        closed := true
        wakers := (R.close s.wakers).1
        woken := wake s.woken (R.close s.wakers).2 }
  | .poll t, s => St.pollRecv R { s with woken := Function.update s.woken t false } t .refused
  | .dropRecv t, s => { s.dropRecv R t with reader := Function.update s.reader t .pending }
  | .recv t, s => St.pollRecv R { s with woken := Function.update s.woken t false } t .suspended
  | .cancel t, s => { s.dropRecv R t with reader := Function.update s.reader t .idle }
  | .abandon t, s => { s with reader := Function.update s.reader t .idle }

def St.initial (R : Wakers κ) : St κ := { Socket.initial with wakers := R.new }

def Lbl.Allowed (polls awaits : ℕ → Prop) : Lbl → Prop
  | .poll t => polls t
  | .recv t => awaits t
  | _ => True

/-- The socket, with the tasks that use `poll_recv_from` and those that use `recv_from`. -/
def socket (R : Wakers κ) (capacity : ℕ) (polls awaits : ℕ → Prop) : Lts.Sys (St κ) Lbl :=
  Lts.Sys.restrict ⟨.initial R, fun l s => guard capacity l s.toSocket, update R⟩
    fun l _ => l.Allowed polls awaits

end AsyncStdSocket

end ReusePort.PolledReceive
