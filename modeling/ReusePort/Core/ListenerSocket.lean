import ReusePort.Core.Net
import ReusePort.Core.Registry

/-!
# ReusePort.Core.ListenerSocket — handing out the sockets of a server

`UdpServerState::listener_socket` (`core/udp.rs`) gives the caller a clone of one of
the server's sockets: the one that is registered under the calling thread, or else
one of the pool. The activity flag, the map of the threads and the pool are read one
after the other, each under its own lock, while the tasks register sockets and
`close` shuts them down (`ReusePort.Core.Registry`). Every thread makes one call at
a time, and a worker's thread makes none while its task registers the socket. No
section under a lock can panic, so the locks are never poisoned.

* `live_step`, `Placed.step` — the pool holds open sockets only, and until `close`
  clears the map a thread that has registered its socket finds it there, though the
  drain of the pool has shut it down before;
* `sound_step` — so a call hands out an open socket, as long as no thread clones its
  own one between the drain and the clearing, or another one after it;
* `unsound_of_untimely` — a call that does is about to return a socket that is not
  sound, so the condition is exact;
* `listenerSocket_sound` — this for whole runs, and the calls after `close`.
-/

namespace ReusePort

namespace Registry

/-! ## What the registries hold -/

variable {c : Config}

/-- What holds in every run: nothing is shut down before the drain of the pool, what is
in the pool is open, and the map has the own socket of every thread that has registered
one, until it is cleared. -/
structure Live {n : ℕ} (s : St n) : Prop where
  inactive : 1 ≤ s.close.rank → s.active = false
  untouched : s.close.rank ≤ 1 → s.shutDown = []
  pool : ∀ socket ∈ s.sockets, socket ∈ s.registered ∧ socket ∉ s.shutDown ∧
    socket ∉ s.closeSockets
  thread : ∀ w socket, s.threadSockets w = some socket →
    socket = .worker w ∧ .worker w ∈ s.registered
  kept : s.close.rank ≤ 3 → ∀ w, .worker w ∈ s.registered →
    s.threadSockets w = some (.worker w)

theorem live_initial : Live (St.initial c) where
  inactive := by
    intro hrank
    simp [St.initial, ClosePc.rank] at hrank
  untouched := by
    intro _
    rfl
  pool := by
    intro socket hsocket
    cases hsocket
  thread := by
    intro w socket hsocket
    cases hsocket
  kept := by
    intro _ w hw
    simp only [St.initial] at hw
    split at hw <;> simp at hw

theorem live_insertThread {n : ℕ} {s : St n} (w : Fin n) (h : Live s) :
    Live (update (.insertThread w) s) where
  inactive := h.inactive
  untouched := h.untouched
  pool := by
    intro socket hsocket
    obtain ⟨hreg, hopen⟩ := h.pool socket hsocket
    exact ⟨List.mem_append_left _ hreg, hopen⟩
  thread := by
    intro v socket hsocket
    by_cases hv : v = w
    · subst hv
      simp only [update, Function.update_self, Option.some.injEq] at hsocket
      exact ⟨hsocket.symm, List.mem_append_right _ (List.mem_singleton_self _)⟩
    · simp only [update, Function.update_of_ne hv] at hsocket
      obtain ⟨hown, hreg⟩ := h.thread v socket hsocket
      exact ⟨hown, List.mem_append_left _ hreg⟩
  kept := by
    intro hrank v hreg
    by_cases hv : v = w
    · subst hv
      simp only [update, Function.update_self]
    · simp only [update, Function.update_of_ne hv]
      rcases List.mem_append.mp hreg with hreg | hreg
      · exact h.kept hrank v hreg
      · exact absurd (Socket.worker.inj (List.mem_singleton.mp hreg)) hv

/-- A task pushes its socket once, so it has not been shut down before. -/
theorem live_push {n : ℕ} {s : St n} {w : Fin n} (hg : s.task w = .pushing) (hp : Pushed s)
    (h : Live s) : Live (update (.push w) s) where
  inactive := h.inactive
  untouched := h.untouched
  pool := by
    intro socket hsocket
    rcases List.mem_append.mp hsocket with hsocket | hsocket
    · exact h.pool socket hsocket
    · rw [List.mem_singleton.mp hsocket]
      have hshut : .worker w ∉ s.shutDown := by
        intro hmem
        exact hp.unpushed hg (by decide) (Or.inr hmem)
      exact ⟨hp.pushing w hg, hshut, hp.notShared w⟩
  thread := h.thread
  kept := h.kept

/-- The steps of `close` after the drain of the pool, which shut nothing of the pool down. -/
theorem Live.advance {n : ℕ} {s s' : St n} (h : Live s) (pc : ClosePc)
    (hrank : 1 ≤ s.close.rank) (hactive : s'.active = s.active) (hpc : s'.close = pc)
    (hlate : 2 ≤ pc.rank)
    (hpool : ∀ socket ∈ s'.sockets, socket ∈ s'.registered ∧ socket ∉ s'.shutDown ∧
      socket ∉ s'.closeSockets)
    (hreg : s'.registered = s.registered)
    (hthread : ∀ w socket, s'.threadSockets w = some socket → s.threadSockets w = some socket)
    (hkept : pc.rank ≤ 3 → s.close.rank ≤ 3 ∧ s'.threadSockets = s.threadSockets) :
    Live s' where
  inactive := by
    intro _
    rw [hactive]
    exact h.inactive hrank
  untouched := by
    intro hearly
    rw [hpc] at hearly
    omega
  pool := hpool
  thread := by
    intro w socket hsocket
    rw [hreg]
    exact h.thread w socket (hthread w socket hsocket)
  kept := by
    intro hrank' w hw
    rw [hpc] at hrank'
    obtain ⟨hbefore, hsame⟩ := hkept hrank'
    rw [hsame]
    rw [hreg] at hw
    exact h.kept hbefore w hw

/-- Past the map, `close` only goes on. -/
theorem Live.goOn {n : ℕ} {s : St n} (h : Live s) (hrank : 1 ≤ s.close.rank) (cancelled : Bool)
    {pc : ClosePc} (hpc : 4 ≤ pc.rank) :
    Live { s with cancelled := cancelled, close := pc } := by
  refine h.advance pc hrank rfl rfl (by omega) h.pool rfl (fun _ _ hsome => hsome) ?_
  intro hbefore
  omega

theorem live_step {l : Lbl c.workers} {s : St c.workers} (hg : guard c l s) (hp : Pushed s)
    (h : Live s) : Live (update l s) := by
  cases l with
  | begin w | beginErr w | finish w | abort w =>
      exact ⟨h.inactive, h.untouched, h.pool, h.thread, h.kept⟩
  | insertThread w => exact live_insertThread w h
  | push w => exact live_push hg hp h
  | closeStore =>
      have hrank : s.close.rank = 0 := congrArg ClosePc.rank hg
      have huntouched := h.untouched (by omega)
      have hkept := h.kept (by omega)
      exact ⟨fun _ => rfl, fun _ => huntouched, h.pool, h.thread, fun _ => hkept⟩
  | drainSockets =>
      have hrank : s.close.rank = 1 := congrArg ClosePc.rank hg
      refine h.advance .drainingCloseSockets (by omega) rfl rfl (by decide) ?_ rfl
        (fun _ _ hsome => hsome) ?_
      · -- the pool is empty now, though the map still has its sockets
        intro socket hsocket
        cases hsocket
      · intro _
        exact ⟨by omega, rfl⟩
  | drainCloseSockets =>
      have hrank : s.close.rank = 2 := congrArg ClosePc.rank hg
      refine h.advance .clearingThreadSockets (by omega) rfl rfl (by decide) ?_ rfl
        (fun _ _ hsome => hsome) ?_
      · -- what is shut down here was not in the pool
        intro socket hsocket
        obtain ⟨hreg, hopen, hclose⟩ := h.pool socket hsocket
        refine ⟨hreg, ?_, List.not_mem_nil⟩
        intro hmem
        rcases List.mem_append.mp hmem with hmem | hmem
        · exact hopen hmem
        · exact hclose hmem
      · intro _
        exact ⟨by omega, rfl⟩
  | clearThreadSockets =>
      have hrank : s.close.rank = 3 := congrArg ClosePc.rank hg
      refine h.advance .cancellingTasks (by omega) rfl rfl (by decide) h.pool rfl ?_ ?_
      · intro w socket hsocket
        cases hsocket
      · intro hbefore
        exact absurd hbefore (by decide)
  | cancelTasks =>
      have hrank : s.close.rank = 4 := congrArg ClosePc.rank hg
      exact h.goOn (by omega) true (by decide)
  | clearCallbackTasks =>
      have hrank : s.close.rank = 5 := congrArg ClosePc.rank hg
      exact h.goOn (by omega) s.cancelled (by decide)

theorem reachable_live {s : St c.workers} (hs : (server c).Reachable s) : Live s := by
  have hboth := (server c).invariant (fun s => Pushed s ∧ Live s) ⟨pushed_initial, live_initial⟩
    (fun l s hg h => ⟨pushed_step hg h.1, live_step hg h.1 h.2⟩) s hs
  exact hboth.2

/-! ## The socket of a thread that registered it before `close` -/

/-- Until the drain the pool has the socket of every thread that has registered one. -/
def Pooled {n : ℕ} (s : St n) : Prop :=
  s.close.rank ≤ 1 → ∀ w, .worker w ∈ s.registered → s.task w = .pushing ∨ .worker w ∈ s.sockets

theorem pooled_initial : Pooled (St.initial c) := by
  intro _ w hw
  simp only [St.initial] at hw
  split at hw <;> simp at hw

theorem Pooled.setTask {n : ℕ} {s : St n} (h : Pooled s) {w : Fin n} {pc : TaskPc}
    (hw : s.task w ≠ .pushing) : Pooled (s.setTask w pc) := by
  intro hrank v hv
  rcases h hrank v hv with hpush | hmem
  · have hne : v ≠ w := by
      rintro rfl
      exact hw hpush
    exact Or.inl ((Function.update_of_ne hne _ _).trans hpush)
  · exact Or.inr hmem

theorem pooled_insertThread {n : ℕ} {s : St n} {w : Fin n} (hpc : s.task w = .inserting)
    (h : Pooled s) : Pooled (update (.insertThread w) s) := by
  intro hrank v hv
  by_cases hvw : v = w
  · subst hvw
    exact Or.inl (Function.update_self _ _ _)
  · rcases List.mem_append.mp hv with hv | hv
    · exact h.setTask (by rw [hpc]; decide) hrank v hv
    · exact absurd (Socket.worker.inj (List.mem_singleton.mp hv)) hvw

theorem pooled_push {n : ℕ} {s : St n} (w : Fin n) (h : Pooled s) :
    Pooled (update (.push w) s) := by
  intro hrank v hv
  by_cases hvw : v = w
  · subst hvw
    exact Or.inr (List.mem_append_right _ (List.mem_singleton_self _))
  · rcases h hrank v hv with hpush | hmem
    · exact Or.inl ((Function.update_of_ne hvw _ _).trans hpush)
    · exact Or.inr (List.mem_append_left _ hmem)

theorem pooled_step {l : Lbl c.workers} {s : St c.workers} (hg : guard c l s) (h : Pooled s) :
    Pooled (update l s) := by
  cases l with
  | begin w | beginErr w | finish w =>
      refine h.setTask ?_
      intro hpush
      cases hpush.symm.trans hg
  | abort w =>
      refine h.setTask ?_
      intro hpush
      rcases hg.2.2 with htask | htask <;> cases hpush.symm.trans htask
  | insertThread w => exact pooled_insertThread hg h
  | push w => exact pooled_push w h
  | closeStore =>
      have hrank : s.close.rank = 0 := congrArg ClosePc.rank hg
      exact fun _ => h (by omega)
  | drainSockets | drainCloseSockets | clearThreadSockets | cancelTasks | clearCallbackTasks =>
      intro hrank
      simp [update, ClosePc.rank] at hrank

theorem reachable_pooled {s : St c.workers} (hs : (server c).Reachable s) : Pooled s :=
  (server c).invariant Pooled pooled_initial (fun _ _ hg h => pooled_step hg h) s hs

/-- Where `close` leaves the socket of worker `w`, if it was in the pool before the drain. -/
structure Placed {n : ℕ} (s : St n) (w : Fin n) : Prop where
  pooled : s.close.rank ≤ 1 → .worker w ∈ s.sockets
  shut : 2 ≤ s.close.rank → .worker w ∈ s.shutDown
  cleared : 4 ≤ s.close.rank → s.threadSockets w = none

theorem Placed.step {l : Lbl c.workers} {s : St c.workers} {w : Fin c.workers}
    (hg : guard c l s) (hother : l ≠ .insertThread w) (h : Placed s w) :
    Placed (update l s) w := by
  cases l with
  | begin v | beginErr v | finish v | abort v => exact ⟨h.pooled, h.shut, h.cleared⟩
  | insertThread v =>
      have hne : w ≠ v := fun heq => hother (heq ▸ rfl)
      refine ⟨h.pooled, h.shut, ?_⟩
      intro hrank
      exact (Function.update_of_ne hne _ _).trans (h.cleared hrank)
  | push v => exact ⟨fun hrank => List.mem_append_left _ (h.pooled hrank), h.shut, h.cleared⟩
  | closeStore =>
      have hrank : s.close.rank = 0 := congrArg ClosePc.rank hg
      have hnext : (update .closeStore s).close.rank = 1 := rfl
      exact ⟨fun _ => h.pooled (by omega), fun _ => by omega, fun _ => by omega⟩
  | drainSockets =>
      have hrank : s.close.rank = 1 := congrArg ClosePc.rank hg
      have hnext : (update .drainSockets s).close.rank = 2 := rfl
      refine ⟨fun _ => by omega, ?_, fun _ => by omega⟩
      intro _
      exact List.mem_append_right _ (h.pooled (by omega))
  | drainCloseSockets =>
      have hrank : s.close.rank = 2 := congrArg ClosePc.rank hg
      have hnext : (update .drainCloseSockets s).close.rank = 3 := rfl
      refine ⟨fun _ => by omega, ?_, fun _ => by omega⟩
      intro _
      exact List.mem_append_left _ (h.shut (by omega))
  | clearThreadSockets =>
      have hrank : s.close.rank = 3 := congrArg ClosePc.rank hg
      have hnext : (update .clearThreadSockets s).close.rank = 4 := rfl
      exact ⟨fun _ => by omega, fun _ => h.shut (by omega), fun _ => rfl⟩
  | cancelTasks =>
      have hrank : s.close.rank = 4 := congrArg ClosePc.rank hg
      have hnext : (update .cancelTasks s).close.rank = 5 := rfl
      exact ⟨fun _ => by omega, fun _ => h.shut (by omega), fun _ => h.cleared (by omega)⟩
  | clearCallbackTasks =>
      have hrank : s.close.rank = 5 := congrArg ClosePc.rank hg
      have hnext : (update .clearCallbackTasks s).close.rank = 6 := rfl
      exact ⟨fun _ => by omega, fun _ => h.shut (by omega), fun _ => h.cleared (by omega)⟩

/-- `close` does not go back. -/
theorem rank_le_update {l : Lbl c.workers} {s : St c.workers} (hg : guard c l s) :
    s.close.rank ≤ (update l s).close.rank := by
  cases l with
  | begin w | beginErr w | insertThread w | push w | finish w | abort w => exact le_rfl
  | closeStore | drainSockets | drainCloseSockets | clearThreadSockets | cancelTasks
  | clearCallbackTasks =>
      rw [show s.close = _ from hg]
      exact Nat.le_succ _

end Registry

namespace ListenerSocket

open Registry (Config Socket)

/-! ## The calls -/

/-- A thread that calls `listener_socket`: the one of a worker, or another one. -/
inductive Thread (n : ℕ) where
  | worker (w : Fin n)
  | other (k : ℕ)
deriving DecidableEq, Repr

/-- A socket that a call has cloned, with what held at that step: whether the socket was in
a registry of this server, whether it had been shut down, and which socket the calling
thread had registered. -/
structure Handed (n : ℕ) where
  socket : Socket n
  registered : Bool
  shutDown : Bool
  own : Option (Socket n)
deriving DecidableEq, Repr

/-- Where a call stands: before the map of the threads, before the pool, or before the
conversion of the clone. `late` tells that `close` had returned when the call began. -/
inductive CallPc (n : ℕ) where
  | idle
  | lookingUp (late : Bool)
  | pooling (late : Bool)
  | converting (late : Bool) (handed : Handed n)
deriving DecidableEq, Repr

/-- A finished call. -/
structure Return (n : ℕ) where
  thread : Thread n
  late : Bool
  result : Except Error (Handed n)
deriving DecidableEq, Repr

/-- The registries, the counter `next_socket`, and the calls: under way, one for each
thread, and finished, in their order. -/
structure St (n : ℕ) where
  server : Registry.St n
  nextSocket : UInt64
  call : Thread n → CallPc n
  returns : List (Return n)

/-- A clone or a conversion that fails does so with the error that the label carries; `time`
is the value of `current_time_seed`. -/
inductive Lbl (n : ℕ) where
  | server (l : Registry.Lbl n)
  | load (t : Thread n)
  | lookUp (t : Thread n) (late : Bool) (failed : Option IoError)
  | pool (t : Thread n) (late : Bool) (time : UInt64) (failed : Option IoError)
  | convert (t : Thread n) (late : Bool) (handed : Handed n) (failed : Option IoError)
deriving DecidableEq, Repr

section Update

variable {n : ℕ}

/-- The entry of `thread_sockets` under the calling thread. -/
def threadSocket (s : Registry.St n) : Thread n → Option (Socket n)
  | .worker w => s.threadSockets w
  | .other _ => none

/-- The socket that the thread has registered. -/
def ownSocket (s : Registry.St n) : Thread n → Option (Socket n)
  | .worker w => if .worker w ∈ s.registered then some (.worker w) else none
  | .other _ => none

/-- `sockets[seed % sockets.len()]`. -/
def pick (sockets : List (Socket n)) (h : sockets ≠ []) (seed : UInt64) : Socket n :=
  sockets.get ⟨seed.toNat % sockets.length, Nat.mod_lt _ (List.length_pos_iff.mpr h)⟩

def St.setCall (s : St n) (t : Thread n) (pc : CallPc n) : St n :=
  { s with call := Function.update s.call t pc }

/-- The call of `t` returns. -/
def St.finish (s : St n) (t : Thread n) (late : Bool) (result : Except Error (Handed n)) : St n :=
  { s.setCall t .idle with returns := s.returns ++ [⟨t, late, result⟩] }

/-- `try_clone`, under the lock of the registry that holds the socket. -/
def St.tryClone (s : St n) (t : Thread n) (late : Bool) (socket : Socket n) :
    Option IoError → St n
  | some error => s.finish t late (.error (.ofIo error))
  | none =>
      s.setCall t (.converting late ⟨socket, decide (socket ∈ s.server.registered),
        decide (socket ∈ s.server.shutDown), ownSocket s.server t⟩)

/-- The thread of the worker is in the middle of its registration. -/
def Registering (s : Registry.St n) : Thread n → Prop
  | .worker w => s.task w = .inserting ∨ s.task w = .pushing
  | .other _ => False

instance (s : Registry.St n) : ∀ t, Decidable (Registering s t)
  | .worker _ => inferInstanceAs (Decidable (_ = _ ∨ _ = _))
  | .other _ => inferInstanceAs (Decidable False)

/-- A registration step is taken on the thread of its worker, which is not in a call. -/
def OffCall (s : St n) : Registry.Lbl n → Prop
  | .begin w | .beginErr w | .insertThread w | .push w => s.call (.worker w) = .idle
  | _ => True

instance (s : St n) : ∀ l, Decidable (OffCall s l)
  | .begin _ | .beginErr _ | .insertThread _ | .push _ => inferInstanceAs (Decidable (_ = _))
  | .finish _ | .abort _ | .closeStore | .drainSockets | .drainCloseSockets
  | .clearThreadSockets | .cancelTasks | .clearCallbackTasks => inferInstanceAs (Decidable True)

def update : Lbl n → St n → St n
  | .server l, s => { s with server := Registry.update l s.server }
  | .load t, s =>
      let late := decide (s.server.close = .returned)
      if s.server.active then s.setCall t (.lookingUp late)
      else s.finish t late (.error (.runtime "server is closed"))
  | .lookUp t late failed, s =>
      match threadSocket s.server t with
      | some socket => s.tryClone t late socket failed
      -- the lock of the map is released here, before the one of the pool is taken
      | none => s.setCall t (.pooling late)
  | .pool t late time failed, s =>
      if h : s.server.sockets = [] then
        s.finish t late (.error (.runtime "server has no listener socket"))
      else
        -- the flag is not read again
        St.tryClone { s with nextSocket := s.nextSocket + 1 } t late
          (pick s.server.sockets h (s.nextSocket ^^^ time)) failed
  | .convert t late handed none, s => s.finish t late (.ok handed)
  | .convert t late _ (some error), s => s.finish t late (.error (.ofIo error))

end Update

variable {c : Config}

def guard (c : Config) : Lbl c.workers → St c.workers → Prop
  | .server l, s => Registry.guard c l s.server ∧ OffCall s l
  | .load t, s => s.call t = .idle ∧ ¬ Registering s.server t
  | .lookUp t late _, s => s.call t = .lookingUp late
  | .pool t late _ _, s => s.call t = .pooling late
  | .convert t late handed _, s => s.call t = .converting late handed

def St.initial (c : Config) : St c.workers where
  server := .initial c
  nextSocket := 0
  call := fun _ => .idle
  returns := []

/-- The server with any number of threads that call `listener_socket`. -/
def callers (c : Config) : Lts.Sys (St c.workers) (Lbl c.workers) :=
  ⟨.initial c, guard c, update⟩

instance (c : Config) : ∀ l s, Decidable ((callers c).guard l s)
  | .server l, s =>
      inferInstanceAs (Decidable ((Registry.server c).guard l s.server ∧ OffCall s l))
  | .load _, s => inferInstanceAs (Decidable (_ = _ ∧ ¬ Registering s.server _))
  | .lookUp _ _ _, _ => inferInstanceAs (Decidable (_ = _))
  | .pool _ _ _ _, _ => inferInstanceAs (Decidable (_ = _))
  | .convert _ _ _ _, _ => inferInstanceAs (Decidable (_ = _))

/-- The calls leave the registries alone. -/
theorem server_update (l : Lbl c.workers) (s : St c.workers) :
    (update l s).server = match l with
      | .server l => Registry.update l s.server
      | _ => s.server := by
  cases l with
  | server l => rfl
  | load t =>
      simp only [update]
      split <;> rfl
  | lookUp t late failed =>
      simp only [update]
      split
      · cases failed <;> rfl
      · rfl
  | pool t late time failed =>
      simp only [update]
      split
      · rfl
      · cases failed <;> rfl
  | convert t late handed failed => cases failed <;> rfl

theorem reachable_server {s : St c.workers} (hs : (callers c).Reachable s) :
    (Registry.server c).Reachable s.server := by
  refine (callers c).invariant (fun s => (Registry.server c).Reachable s.server)
    (Lts.Sys.Reachable.refl _) ?_ s hs
  intro l s hg h
  show (Registry.server c).Reachable (update l s).server
  rw [server_update]
  cases l with
  | server l => exact h.step hg.1
  | load t | lookUp t late failed | pool t late time failed | convert t late handed failed =>
      exact h

/-! ## Calls that begin after `close` -/

def CallPc.late {n : ℕ} : CallPc n → Bool
  | .idle => false
  | .lookingUp late | .pooling late | .converting late _ => late

/-- A call that begins after `close` has returned does not get past the activity check. -/
structure Prompt {n : ℕ} (s : St n) : Prop where
  underWay : ∀ t, (s.call t).late = false
  returned : ∀ r ∈ s.returns, r.late = true → ∃ error, r.result = .error error

theorem Prompt.setCall {n : ℕ} {s : St n} (h : Prompt s) (t : Thread n) {pc : CallPc n}
    (hpc : pc.late = false) : Prompt (s.setCall t pc) where
  underWay := by
    intro t'
    by_cases ht : t' = t
    · subst ht
      simpa [St.setCall] using hpc
    · simpa [St.setCall, Function.update_of_ne ht] using h.underWay t'
  returned := h.returned

theorem Prompt.finish {n : ℕ} {s : St n} (h : Prompt s) (t : Thread n) {late : Bool}
    {result : Except Error (Handed n)}
    (hlate : late = true → ∃ error, result = .error error) : Prompt (s.finish t late result) where
  underWay := (h.setCall t rfl).underWay
  returned := by
    intro r hr
    rcases List.mem_append.mp hr with hr | hr
    · exact h.returned r hr
    · rw [List.mem_singleton.mp hr]
      exact hlate

theorem Prompt.tryClone {n : ℕ} {s : St n} (h : Prompt s) (t : Thread n) (socket : Socket n)
    (failed : Option IoError) : Prompt (s.tryClone t false socket failed) := by
  cases failed with
  | some error => exact h.finish t fun _ => ⟨_, rfl⟩
  | none => exact h.setCall t rfl

/-- A step of a call under way is taken by a call that did not begin late. -/
theorem Prompt.late_eq {n : ℕ} {s : St n} (h : Prompt s) {t : Thread n} {pc : CallPc n}
    (hpc : s.call t = pc) : pc.late = false :=
  hpc ▸ h.underWay t

theorem prompt_step {l : Lbl c.workers} {s : St c.workers} (hlive : Registry.Live s.server)
    (hg : guard c l s) (h : Prompt s) : Prompt (update l s) := by
  cases l with
  | server l => exact ⟨h.underWay, h.returned⟩
  | load t =>
      simp only [update]
      split
      · -- an active server has not begun to close
        rename_i hactive
        refine h.setCall t ?_
        by_contra hreturned
        have hclose : s.server.close = .returned := by simpa [CallPc.late] using hreturned
        have hinactive := hlive.inactive (by rw [hclose]; decide)
        rw [hactive] at hinactive
        cases hinactive
      · exact h.finish t fun _ => ⟨_, rfl⟩
  | lookUp t late failed =>
      have hlate : late = false := h.late_eq hg
      subst hlate
      simp only [update]
      split
      · exact h.tryClone t _ failed
      · exact h.setCall t rfl
  | pool t late time failed =>
      have hlate : late = false := h.late_eq hg
      subst hlate
      simp only [update]
      split
      · exact h.finish t fun _ => ⟨_, rfl⟩
      · have hnext : Prompt { s with nextSocket := s.nextSocket + 1 } := ⟨h.underWay, h.returned⟩
        exact hnext.tryClone t _ failed
  | convert t late handed failed =>
      have hlate : late = false := h.late_eq hg
      subst hlate
      cases failed with
      | none => exact h.finish t fun hfalse => by cases hfalse
      | some error => exact h.finish t fun _ => ⟨_, rfl⟩

theorem reachable_prompt {s : St c.workers} (hs : (callers c).Reachable s) : Prompt s := by
  rcases hs with ⟨tr, hrun⟩
  refine (callers c).trace_invariant (fun _ s => Prompt s) ?_ ?_ tr s hrun
  · exact ⟨fun _ => rfl, fun r hr => by cases hr⟩
  · intro tr l s hrun hg h
    have hlive := Registry.reachable_live (reachable_server ⟨tr, hrun⟩)
    exact prompt_step hlive hg h

/-! ## What the calls hand out -/

/-- What a caller may rely on: the socket was registered by this server, it had not been shut
down when it was cloned, and it is the caller's own one if there is one. -/
structure Handed.Sound {n : ℕ} (handed : Handed n) : Prop where
  registered : handed.registered = true
  alive : handed.shutDown = false
  own : ∀ socket, handed.own = some socket → handed.socket = socket

/-- A thread that has registered its socket does not clone it between the drain of the pool and
the clearing of the map, nor, when it does not find it in the map, another one of the pool. -/
def Timely {n : ℕ} : Lbl n → St n → Prop
  | .lookUp (.worker w) _ none, s =>
      .worker w ∈ s.server.registered → s.server.close.rank ≤ 1 ∨ 4 ≤ s.server.close.rank
  | .pool (.worker w) _ _ none, s => .worker w ∈ s.server.registered → s.server.sockets = []
  | _, _ => True

instance {n : ℕ} : ∀ (l : Lbl n) s, Decidable (Timely l s)
  | .lookUp (.worker _) _ none, _ => inferInstanceAs (Decidable (_ ∈ _ → _ ≤ _ ∨ _ ≤ _))
  | .pool (.worker _) _ _ none, _ => inferInstanceAs (Decidable (_ ∈ _ → _ = _))
  | .lookUp (.worker _) _ (some _), _ | .lookUp (.other _) _ _, _
  | .pool (.worker _) _ _ (some _), _ | .pool (.other _) _ _ _, _
  | .server _, _ | .load _, _ | .convert _ _ _ _, _ => inferInstanceAs (Decidable True)

/-- A thread in a call does not register, and its call began before `close`: its socket was in
the pool before the drain. It goes on to the pool only after the map has been cleared. -/
structure Settled {n : ℕ} (s : St n) : Prop where
  placed : ∀ w, s.call (.worker w) ≠ .idle → .worker w ∈ s.server.registered →
    Registry.Placed s.server w
  pooling : ∀ w late, s.call (.worker w) = .pooling late → .worker w ∈ s.server.registered →
    4 ≤ s.server.close.rank

theorem Settled.setCall {n : ℕ} {s : St n} (h : Settled s) (t : Thread n) {pc : CallPc n}
    (hplaced : ∀ w, t = .worker w → pc ≠ .idle → .worker w ∈ s.server.registered →
      Registry.Placed s.server w)
    (hpool : ∀ w late, t = .worker w → pc = .pooling late → .worker w ∈ s.server.registered →
      4 ≤ s.server.close.rank) :
    Settled (s.setCall t pc) where
  placed := by
    intro w hpc
    by_cases ht : .worker w = t
    · exact hplaced w ht.symm (by simpa [St.setCall, ht] using hpc)
    · exact h.placed w (by simpa [St.setCall, Function.update_of_ne ht] using hpc)
  pooling := by
    intro w late hpc
    by_cases ht : .worker w = t
    · exact hpool w late ht.symm (by simpa [St.setCall, ht] using hpc)
    · exact h.pooling w late (by simpa [St.setCall, Function.update_of_ne ht] using hpc)

theorem Settled.finish {n : ℕ} {s : St n} (h : Settled s) (t : Thread n) (late : Bool)
    (result : Except Error (Handed n)) : Settled (s.finish t late result) := by
  have hset : Settled (s.setCall t .idle) :=
    h.setCall t (fun _ _ hne => absurd rfl hne) (fun _ _ _ hpc => by cases hpc)
  exact ⟨hset.placed, hset.pooling⟩

/-- A call that is under way already may clone. -/
theorem Settled.tryClone {n : ℕ} {s : St n} (h : Settled s) {t : Thread n} (late : Bool)
    (socket : Socket n) (failed : Option IoError) (hcall : s.call t ≠ .idle) :
    Settled (s.tryClone t late socket failed) := by
  cases failed with
  | some error => exact h.finish t late _
  | none =>
      refine h.setCall t ?_ (fun _ _ _ hpc => by cases hpc)
      rintro w rfl _ hreg
      exact h.placed w hcall hreg

theorem settled_server {l : Registry.Lbl c.workers} {s : St c.workers}
    (hg : Registry.guard c l s.server) (hoff : OffCall s l) (h : Settled s) :
    Settled (update (.server l) s) := by
  -- the socket of a thread in a call was registered before this step
  have hbefore : ∀ w, s.call (.worker w) ≠ .idle →
      .worker w ∈ (Registry.update l s.server).registered →
      l ≠ .insertThread w ∧ .worker w ∈ s.server.registered := by
    intro w hcall hreg
    have hne : l ≠ .insertThread w := by
      rintro rfl
      exact hcall hoff
    refine ⟨hne, ?_⟩
    cases l with
    | insertThread v =>
        rcases List.mem_append.mp hreg with hreg | hreg
        · exact hreg
        · rw [Socket.worker.inj (List.mem_singleton.mp hreg)] at hne
          exact absurd rfl hne
    | begin v | beginErr v | push v | finish v | abort v | closeStore | drainSockets
    | drainCloseSockets | clearThreadSockets | cancelTasks | clearCallbackTasks => exact hreg
  constructor
  · intro w hcall hreg
    obtain ⟨hne, hreg'⟩ := hbefore w hcall hreg
    exact (h.placed w hcall hreg').step hg hne
  · intro w late hpc hreg
    have hcall : s.call (.worker w) ≠ .idle := ne_of_eq_of_ne hpc (by rintro ⟨⟩)
    exact (h.pooling w late hpc (hbefore w hcall hreg).2).trans (Registry.rank_le_update hg)

theorem settled_load {s : St c.workers} {t : Thread c.workers} (hlive : Registry.Live s.server)
    (hpooled : Registry.Pooled s.server) (hreg : ¬ Registering s.server t) (h : Settled s) :
    Settled (update (.load t) s) := by
  simp only [update]
  split
  · rename_i hactive
    have hrank : s.server.close.rank = 0 := by
      by_contra hne
      cases hactive.symm.trans (hlive.inactive (by omega))
    refine h.setCall t ?_ (fun _ _ _ hpc => by cases hpc)
    rintro w rfl _ hw
    refine ⟨?_, fun _ => by omega, fun _ => by omega⟩
    intro hearly
    exact (hpooled hearly w hw).resolve_left fun hpush => hreg (Or.inr hpush)
  · exact h.finish t _ _

theorem settled_step {l : Lbl c.workers} {s : St c.workers} (hlive : Registry.Live s.server)
    (hpooled : Registry.Pooled s.server) (hg : guard c l s) (h : Settled s) :
    Settled (update l s) := by
  cases l with
  | server l => exact settled_server hg.1 hg.2 h
  | load t => exact settled_load hlive hpooled hg.2 h
  | lookUp t late failed =>
      have hcall : s.call t ≠ .idle := ne_of_eq_of_ne hg (by rintro ⟨⟩)
      simp only [update]
      split
      · exact h.tryClone late _ failed hcall
      · rename_i hnone
        refine h.setCall t ?_ ?_
        · rintro w rfl _ hreg
          exact h.placed w hcall hreg
        · -- until the clearing the map has the socket of every thread that has registered one
          rintro w _ rfl _ hreg
          by_contra hearly
          have hkept := hlive.kept (by omega) w hreg
          cases hnone.symm.trans hkept
  | pool t late time failed =>
      have hcall : s.call t ≠ .idle := ne_of_eq_of_ne hg (by rintro ⟨⟩)
      simp only [update]
      split
      · exact h.finish t _ _
      · have hnext : Settled { s with nextSocket := s.nextSocket + 1 } := ⟨h.placed, h.pooling⟩
        exact hnext.tryClone late _ failed hcall
  | convert t late handed failed => cases failed <;> exact h.finish t _ _

theorem reachable_settled {s : St c.workers} (hs : (callers c).Reachable s) : Settled s := by
  rcases hs with ⟨tr, hrun⟩
  refine (callers c).trace_invariant (fun _ s => Settled s) ?_ ?_ tr s hrun
  · exact ⟨fun _ hne => absurd rfl hne, fun _ _ hpc => by cases hpc⟩
  · intro tr l s hrun hg h
    have hserver := reachable_server ⟨tr, hrun⟩
    exact settled_step (Registry.reachable_live hserver) (Registry.reachable_pooled hserver) hg h

/-- Every call that has cloned a socket has cloned a sound one. -/
structure Sound {n : ℕ} (s : St n) : Prop where
  converting : ∀ t late handed, s.call t = .converting late handed → handed.Sound
  returned : ∀ r ∈ s.returns, ∀ handed, r.result = .ok handed → handed.Sound

theorem sound_initial : Sound (St.initial c) where
  converting := by
    intro t late handed hpc
    cases hpc
  returned := by
    intro r hr
    cases hr

theorem Sound.setCall {n : ℕ} {s : St n} (h : Sound s) (t : Thread n) {pc : CallPc n}
    (hconv : ∀ late handed, pc = .converting late handed → handed.Sound) :
    Sound (s.setCall t pc) where
  converting := by
    intro t' late handed hpc
    by_cases ht : t' = t
    · subst ht
      exact hconv late handed (by simpa [St.setCall] using hpc)
    · exact h.converting t' late handed
        (by simpa [St.setCall, Function.update_of_ne ht] using hpc)
  returned := h.returned

theorem Sound.finish {n : ℕ} {s : St n} (h : Sound s) (t : Thread n) (late : Bool)
    {result : Except Error (Handed n)} (hresult : ∀ handed, result = .ok handed → handed.Sound) :
    Sound (s.finish t late result) := by
  have hset : Sound (s.setCall t .idle) := h.setCall t fun _ _ hpc => by cases hpc
  refine ⟨hset.converting, ?_⟩
  intro r hr
  rcases List.mem_append.mp hr with hr | hr
  · exact h.returned r hr
  · rw [List.mem_singleton.mp hr]
    exact hresult

theorem Sound.finishErr {n : ℕ} {s : St n} (h : Sound s) (t : Thread n) (late : Bool)
    (error : Error) : Sound (s.finish t late (.error error)) :=
  h.finish t late fun _ hok => by cases hok

/-- A clone is sound if its socket is registered, open, and not another one than the caller's. -/
theorem Sound.tryClone {n : ℕ} {s : St n} (h : Sound s) (t : Thread n) (late : Bool)
    {socket : Socket n} (hreg : socket ∈ s.server.registered)
    (halive : socket ∉ s.server.shutDown)
    (hown : ∀ own, ownSocket s.server t = some own → socket = own) :
    Sound (s.tryClone t late socket none) := by
  refine h.setCall t ?_
  intro late' handed hpc
  cases hpc
  exact ⟨decide_eq_true hreg, decide_eq_false halive, hown⟩

/-- A thread that finds its own socket before the drain of the pool finds it open. -/
theorem sound_lookUp {s : St c.workers} {t : Thread c.workers} {late : Bool}
    {failed : Option IoError} (hlive : Registry.Live s.server) (hsettled : Settled s)
    (hcall : s.call t = .lookingUp late) (htimely : Timely (.lookUp t late failed) s)
    (h : Sound s) : Sound (update (.lookUp t late failed) s) := by
  cases t with
  | other k => exact h.setCall _ fun _ _ hpc => by cases hpc
  | worker w =>
      simp only [update]
      split
      · rename_i socket hsocket
        cases failed with
        | some error => exact h.finishErr _ late _
        | none =>
            obtain ⟨rfl, hreg⟩ := hlive.thread w socket hsocket
            have hplaced := hsettled.placed w (ne_of_eq_of_ne hcall (by rintro ⟨⟩)) hreg
            -- once the map has been cleared, the thread does not find it
            have hearly : s.server.close.rank ≤ 1 := by
              refine (htimely hreg).resolve_right ?_
              intro hlate
              cases (hplaced.cleared hlate).symm.trans hsocket
            refine h.tryClone _ late hreg ?_ ?_
            · rw [hlive.untouched hearly]
              exact List.not_mem_nil
            · intro own hown
              rw [ownSocket, if_pos hreg] at hown
              exact Option.some.inj hown
      · exact h.setCall _ fun _ _ hpc => by cases hpc

theorem pick_mem {n : ℕ} (sockets : List (Socket n)) (h : sockets ≠ []) (seed : UInt64) :
    pick sockets h seed ∈ sockets :=
  List.get_mem sockets _

/-- The pool holds open sockets, and a thread that draws on it has no socket of its own. -/
theorem sound_pool {s : St c.workers} {t : Thread c.workers} {late : Bool} {time : UInt64}
    {failed : Option IoError} (hlive : Registry.Live s.server)
    (htimely : Timely (.pool t late time failed) s) (h : Sound s) :
    Sound (update (.pool t late time failed) s) := by
  simp only [update]
  split
  · exact h.finishErr t _ _
  · rename_i hne
    have hnext : Sound { s with nextSocket := s.nextSocket + 1 } := ⟨h.converting, h.returned⟩
    cases failed with
    | some error => exact hnext.finishErr t late _
    | none =>
        obtain ⟨hreg, halive, -⟩ := hlive.pool _ (pick_mem _ hne (s.nextSocket ^^^ time))
        refine hnext.tryClone t late hreg halive ?_
        intro own hown
        cases t with
        | other k => cases hown
        | worker w =>
            have hnone : .worker w ∉ s.server.registered := fun hw => hne (htimely hw)
            rw [ownSocket, if_neg hnone] at hown
            cases hown

theorem sound_step {l : Lbl c.workers} {s : St c.workers} (hlive : Registry.Live s.server)
    (hsettled : Settled s) (hg : guard c l s) (htimely : Timely l s) (h : Sound s) :
    Sound (update l s) := by
  cases l with
  | server l => exact ⟨h.converting, h.returned⟩
  | load t =>
      simp only [update]
      split
      · exact h.setCall t fun _ _ hpc => by cases hpc
      · exact h.finishErr t _ _
  | lookUp t late failed => exact sound_lookUp hlive hsettled hg htimely h
  | pool t late time failed => exact sound_pool hlive htimely h
  | convert t late handed failed =>
      cases failed with
      | some error => exact h.finishErr t late _
      | none =>
          refine h.finish t late ?_
          intro handed' hok
          cases hok
          exact h.converting t late handed hg

theorem sound_of_timely {tr : List (Lbl c.workers)} {s : St c.workers}
    (hrun : ((callers c).restrict Timely).Run (callers c).init tr s) : Sound s := by
  refine ((callers c).restrict Timely).trace_invariant (fun _ s => Sound s) sound_initial ?_ tr s
    hrun
  intro tr l s hrun hg h
  have hs : (callers c).Reachable s := ⟨tr, hrun.of_restrict⟩
  exact sound_step (Registry.reachable_live (reachable_server hs)) (reachable_settled hs) hg.1
    hg.2 h

/-! ## The condition is exact -/

/-- Between the drain and the clearing the own socket has been shut down. -/
theorem unsound_lookUp {s : St c.workers} {w : Fin c.workers} {late : Bool}
    (hlive : Registry.Live s.server) (hsettled : Settled s)
    (hcall : s.call (.worker w) = .lookingUp late)
    (h : ¬ Timely (.lookUp (.worker w) late none) s) :
    ∃ handed, (update (.lookUp (.worker w) late none) s).call (.worker w) =
      .converting late handed ∧ ¬ handed.Sound := by
  simp only [Timely, Classical.not_imp, not_or, not_le] at h
  obtain ⟨hreg, hdrained, huncleared⟩ := h
  have hplaced := hsettled.placed w (ne_of_eq_of_ne hcall (by rintro ⟨⟩)) hreg
  have hkept : threadSocket s.server (.worker w) = some (.worker w) :=
    hlive.kept (by omega) w hreg
  simp only [update, hkept]
  refine ⟨_, Function.update_self _ _ _, ?_⟩
  intro hsound
  exact of_decide_eq_false hsound.alive (hplaced.shut (by omega))

/-- After the clearing the pool does not have the own socket. -/
theorem unsound_pool {s : St c.workers} {w : Fin c.workers} {late : Bool} {time : UInt64}
    (hlive : Registry.Live s.server) (hsettled : Settled s)
    (hcall : s.call (.worker w) = .pooling late)
    (h : ¬ Timely (.pool (.worker w) late time none) s) :
    ∃ handed, (update (.pool (.worker w) late time none) s).call (.worker w) =
      .converting late handed ∧ ¬ handed.Sound := by
  simp only [Timely, Classical.not_imp] at h
  obtain ⟨hreg, hne⟩ := h
  have hplaced := hsettled.placed w (ne_of_eq_of_ne hcall (by rintro ⟨⟩)) hreg
  have hcleared := hsettled.pooling w late hcall hreg
  simp only [update, dif_neg hne]
  refine ⟨_, Function.update_self _ _ _, ?_⟩
  intro hsound
  have hown : pick s.server.sockets hne (s.nextSocket ^^^ time) = .worker w :=
    hsound.own _ (if_pos hreg)
  have hmem := pick_mem s.server.sockets hne (s.nextSocket ^^^ time)
  rw [hown] at hmem
  exact (hlive.pool _ hmem).2.1 (hplaced.shut (by omega))

theorem unsound_of_untimely {l : Lbl c.workers} {s : St c.workers}
    (hlive : Registry.Live s.server) (hsettled : Settled s) (hg : guard c l s)
    (h : ¬ Timely l s) :
    ∃ t late handed, (update l s).call t = .converting late handed ∧ ¬ handed.Sound := by
  cases l with
  | lookUp t late failed =>
      cases t with
      | other k => exact absurd trivial h
      | worker w =>
          cases failed with
          | some error => exact absurd trivial h
          | none => exact ⟨_, late, unsound_lookUp hlive hsettled hg h⟩
  | pool t late time failed =>
      cases t with
      | other k => exact absurd trivial h
      | worker w =>
          cases failed with
          | some error => exact absurd trivial h
          | none => exact ⟨_, late, unsound_pool hlive hsettled hg h⟩
  | server l | load t | convert t late handed failed => exact absurd trivial h

/-! ## The server as its callers see it -/

/-- In every run in which no thread that has registered its socket clones it between the drain
of the pool and the clearing of the map, or another one after it, every call that returns a
socket returns a sound one. After a step against this condition the call can return one that is
not sound. And in every run, a call that begins after `close` has returned fails. -/
theorem listenerSocket_sound (c : Config) :
    (∀ tr s, ((callers c).restrict Timely).Run (callers c).init tr s →
      ∀ r ∈ s.returns, ∀ handed, r.result = .ok handed → handed.Sound) ∧
    (∀ tr s l, (callers c).Run (callers c).init tr s → (callers c).guard l s → ¬ Timely l s →
      ∃ convert s', (callers c).Run s [l, convert] s' ∧
        ∃ r ∈ s'.returns, ∃ handed, r.result = .ok handed ∧ ¬ handed.Sound) ∧
    ∀ tr s, (callers c).Run (callers c).init tr s →
      ∀ r ∈ s.returns, r.late = true → ∃ error, r.result = .error error := by
  refine ⟨?_, ?_, ?_⟩
  · intro tr s hrun
    exact (sound_of_timely hrun).returned
  · intro tr s l hrun hg hl
    have hs : (callers c).Reachable s := ⟨tr, hrun⟩
    obtain ⟨t, late, handed, hcall, hunsound⟩ :=
      unsound_of_untimely (Registry.reachable_live (reachable_server hs)) (reachable_settled hs) hg
        hl
    refine ⟨.convert t late handed none, _, .cons hg (.cons hcall .nil), ⟨t, late, .ok handed⟩, ?_,
      handed, rfl, hunsound⟩
    exact List.mem_append_right _ (List.mem_singleton_self _)
  · intro tr s hrun
    exact (reachable_prompt ⟨tr, hrun⟩).returned

/-- The registration of worker `w`, from its first to its last step. -/
def register {n : ℕ} (w : Fin n) : List (Lbl n) :=
  [.server (.begin w), .server (.insertThread w), .server (.push w)]

/-- The worker's own socket, after it has been shut down. -/
def ownDead : Handed 1 := ⟨.worker 0, true, true, some (.worker 0)⟩

/-- The socket of worker 1, for a call of worker 0, which has one itself. -/
def foreign : Handed 2 := ⟨.worker 1, true, false, some (.worker 0)⟩

/-- Worker 0 has registered its socket and calls. Between the check and the lookup `close`
drains the pool. -/
def lookUpAfterDrain : List (Lbl 1) :=
  register 0 ++ [.load (.worker 0), .server .closeStore, .server .drainSockets,
    .lookUp (.worker 0) false none, .convert (.worker 0) false ownDead none]

/-- As before, but `close` has cleared the map too, and worker 1 registers late. -/
def lookUpAfterClear : List (Lbl 2) :=
  register 0 ++ [.load (.worker 0), .server .closeStore, .server .drainSockets,
    .server .drainCloseSockets, .server .clearThreadSockets] ++ register 1 ++
    [.lookUp (.worker 0) false none, .pool (.worker 0) false 0 none,
      .convert (.worker 0) false foreign none]

/-- Two runs in which a worker that has registered its socket calls while `close` runs. Between
the drain of the pool and the clearing of the map the call returns the socket that has just been
shut down; after the clearing it returns the socket of another worker. -/
theorem listenerSocket_dead :
    (∃ s, (callers ⟨.serve, 1, false⟩).Run (callers ⟨.serve, 1, false⟩).init lookUpAfterDrain s ∧
      s.returns.map (·.result) = [.ok ownDead]) ∧
    (∃ s, (callers ⟨.serve, 2, false⟩).Run (callers ⟨.serve, 2, false⟩).init lookUpAfterClear s ∧
      s.returns.map (·.result) = [.ok foreign]) ∧
    ¬ ownDead.Sound ∧ ¬ foreign.Sound := by
  refine ⟨?_, ?_, ?_, ?_⟩
  · exact (callers ⟨.serve, 1, false⟩).exists_run_of_exec _ _ (by decide)
  · exact (callers ⟨.serve, 2, false⟩).exists_run_of_exec _ _ (by decide)
  · intro hsound
    cases hsound.alive
  · intro hsound
    cases hsound.own _ rfl

/-- A worker and another thread call before `close`. The worker's second call passes the check
before `close` and looks its socket up after it; its third one begins after it. -/
def timelyCalls : List (Lbl 1) :=
  register 0 ++ [.load (.worker 0), .lookUp (.worker 0) false none, .load (.other 0),
    .convert (.worker 0) false ⟨.worker 0, true, false, some (.worker 0)⟩ none,
    .lookUp (.other 0) false none, .pool (.other 0) false 7 none,
    .convert (.other 0) false ⟨.worker 0, true, false, none⟩ none, .load (.worker 0)] ++
    Registry.closeAll.map .server ++
    [.lookUp (.worker 0) false none, .pool (.worker 0) false 7 none, .load (.worker 0)]

/-- What these calls return. -/
def timelyReturns : List (Return 1) :=
  [⟨.worker 0, false, .ok ⟨.worker 0, true, false, some (.worker 0)⟩⟩,
    ⟨.other 0, false, .ok ⟨.worker 0, true, false, none⟩⟩,
    ⟨.worker 0, false, .error (.runtime "server has no listener socket")⟩,
    ⟨.worker 0, true, .error (.runtime "server is closed")⟩]

/-- The calls above, and a call that looks the worker's socket up just after the drain. -/
theorem listenerSocket_sound_instances :
    (∃ s, ((callers ⟨.serve, 1, false⟩).restrict Timely).Run (callers ⟨.serve, 1, false⟩).init
        timelyCalls s ∧
      s.returns = timelyReturns ∧
      (∀ r ∈ s.returns, ∀ handed, r.result = .ok handed → handed.Sound) ∧
      ∀ r ∈ s.returns, r.late = true → ∃ error, r.result = .error error) ∧
    ∃ s, (callers ⟨.serve, 1, false⟩).Run (callers ⟨.serve, 1, false⟩).init
        (register 0 ++ [.load (.worker 0), .server .closeStore, .server .drainSockets]) s ∧
      ∃ convert s', (callers ⟨.serve, 1, false⟩).Run s
          [.lookUp (.worker 0) false none, convert] s' ∧
        ∃ r ∈ s'.returns, ∃ handed, r.result = .ok handed ∧ ¬ handed.Sound := by
  have hsound := listenerSocket_sound ⟨.serve, 1, false⟩
  constructor
  · rcases ((callers ⟨.serve, 1, false⟩).restrict Timely).exists_run_of_exec timelyCalls
        (fun s => s.returns = timelyReturns) (by decide) with ⟨s, hrun, hreturns⟩
    exact ⟨s, hrun, hreturns, hsound.1 _ s hrun, hsound.2.2 _ s hrun.of_restrict⟩
  · rcases (callers ⟨.serve, 1, false⟩).exists_run_of_exec
        (register 0 ++ [.load (.worker 0), .server .closeStore, .server .drainSockets])
        (fun s => (callers ⟨.serve, 1, false⟩).guard (.lookUp (.worker 0) false none) s ∧
          ¬ Timely (.lookUp (.worker 0) false none) s) (by decide) with ⟨s, hrun, hg, hlate⟩
    exact ⟨s, hrun, hsound.2.1 _ s _ hrun hg hlate⟩

end ListenerSocket

end ReusePort
