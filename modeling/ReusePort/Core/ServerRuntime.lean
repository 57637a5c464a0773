import Mathlib
import ReusePort.Core.Net
import ReusePort.Progress

/-!
# ReusePort.Core.ServerRuntime — the life of a runtime

`ServerRuntime::start` (`core/server_runtime.rs`) spawns the worker threads one by one
and waits for each to send the handle of its executor. Any step can fail: the thread
cannot be spawned, or it panics while it builds its executor. The handles that `start`
has collected are then dropped, as they are when a runtime is dropped: each sends
`Shutdown` to its thread and joins it. In between, any thread can call `spawn_task`,
which stays on the worker that calls it and otherwise takes the workers in turn.

The runtime is dropped here by the thread that started it, with no call under way (a
call borrows the runtime). A parked thread is assumed to come to its `Shutdown` and to
obey it: the tasks of the application that run on it, and could block it, are not
modelled.

* `Placed` — where the threads are, by where `start` or the destructor is;
* `runtime_all_or_nothing` — a started runtime has all its threads, a failed or dropped
  one has none, and neither `start` nor the destructor ever hangs.
-/

namespace ReusePort.ServerRuntime

/-! ## The configuration -/

/-- `WorkerCount`. -/
inductive WorkerCount where
  | default
  | fixed (workers : ℕ)
deriving DecidableEq, Repr

/-- `ServerRuntimeConfig::validate`. -/
def validate : WorkerCount → Except Error Unit
  | .fixed 0 => .error (.invalidConfig "worker count must be greater than zero")
  | _ => .ok ()

/-- The worker count of `start`; `cpus` is `num_cpus::get()`. -/
def workerCount (cpus : ℕ) : WorkerCount → ℕ
  | .default => max cpus 1
  | .fixed workers => workers

theorem workerCount_pos {cpus : ℕ} {config : WorkerCount} (h : validate config = .ok ()) :
    0 < workerCount cpus config := by
  cases config with
  | default => exact Nat.lt_of_lt_of_le Nat.zero_lt_one (Nat.le_max_right cpus 1)
  | fixed workers =>
      cases workers with
      | zero => cases h
      | succ workers => exact Nat.succ_pos workers

/-! ## The state -/

/-- A worker thread: not spawned, in `CurrentThreadExecutor::new`, about to send its
handle, in `park_until_shutdown`, or gone. -/
inductive ThreadPc where
  | unborn
  | building
  | sending
  | parked
  | ended
deriving DecidableEq, Repr

/-- How the story ends: `start` returns an error, or the runtime is dropped. -/
inductive Outcome where
  | failed (error : Error)
  | dropped
deriving DecidableEq, Repr

/-- The thread that starts and drops the runtime. At `spawning w` the first `w` handles
are in `workers`; at `dropping o m w _` the destructor of `m` handles has come to the
`w`-th, and has sent `Shutdown` if it is joining. -/
inductive OwnerPc where
  | validating
  | spawning (w : ℕ)
  | receiving (w : ℕ)
  | started
  | dropping (outcome : Outcome) (handles w : ℕ) (joining : Bool)
  | done (outcome : Outcome)
deriving DecidableEq, Repr

/-- Where a call of `spawn_task` stands: at `ensure_running`, at `current_worker_id`, in
`random_worker_id` at its own `ensure_running` and at the `fetch_add`, and at
`submit_to_worker`. -/
inductive CallPc where
  | ensure
  | locate
  | ensureAgain
  | ticket
  | submit (w : ℕ)
deriving DecidableEq, Repr

/-- A call, and the worker on whose thread it runs, if any. -/
structure Call where
  thread : Option ℕ
  pc : CallPc
deriving DecidableEq, Repr

/-- What a call has returned: the worker that has the task, or an error. -/
structure Return where
  thread : Option ℕ
  result : Except Error ℕ
deriving DecidableEq, Repr

/-- `channel` are the handles that were sent and not received, `shutdown` the threads
that are told to shut down; `tickets` counts the calls of `fetch_add`. -/
structure St where
  owner : OwnerPc
  thread : ℕ → ThreadPc
  channel : ℕ → Bool
  shutdown : ℕ → Bool
  active : Bool
  nextWorker : UInt64
  tickets : ℕ
  calls : Multiset Call
  returned : Multiset Return

def initial : St where
  owner := .validating
  thread := fun _ => .unborn
  channel := fun _ => false
  shutdown := fun _ => false
  active := true
  nextWorker := 0
  tickets := 0
  calls := 0
  returned := 0

/-! ## Calls -/

/-- `current_worker_id`: the position of the handle whose thread is the caller's. -/
def currentWorkerId (n : ℕ) (thread : Option ℕ) : Option ℕ :=
  (List.range n).find? fun w => thread = some w

/-- `self.worker(worker_id)?.submit(task)`: a thread that is gone has dropped the receiver
of its commands. -/
def submitToWorker (n : ℕ) (thread : ℕ → ThreadPc) (w : ℕ) : Except Error ℕ :=
  if w < n then
    if thread w = .ended then
      .error (.ofIo ⟨.brokenPipe, "worker runtime stopped"⟩)
    else .ok w
  else .error (.invalidConfig "worker index is out of range")

/-- A call goes on to `pc`, or returns. -/
def St.proceed (s : St) (c : Call) : CallPc ⊕ Except Error ℕ → St
  | .inl pc => { s with calls := ⟨c.thread, pc⟩ ::ₘ s.calls.erase c }
  | .inr result =>
      { s with calls := s.calls.erase c, returned := ⟨c.thread, result⟩ ::ₘ s.returned }

def stopped : Error := .runtime "server runtime is stopped"

def noThreads : Error := .runtime "server runtime has no worker threads"

/-- One step of a call. -/
def St.callStep (n : ℕ) (s : St) (c : Call) : St :=
  match c.pc with
  | .ensure => s.proceed c (if s.active then .inl .locate else .inr (.error stopped))
  | .locate => s.proceed c (.inl ((currentWorkerId n c.thread).elim .ensureAgain .submit))
  | .ensureAgain => s.proceed c (if s.active then .inl .ticket else .inr (.error stopped))
  | .ticket =>
      if n = 0 then s.proceed c (.inr (.error noThreads))
      else
        St.proceed { s with nextWorker := s.nextWorker + 1, tickets := s.tickets + 1 } c
          (.inl (.submit (s.nextWorker.toNat % n)))
  | .submit w => s.proceed c (.inr (submitToWorker n s.thread w))

/-! ## The steps -/

inductive Lbl where
  | validate
  | spawn (w : ℕ)
  | spawnErr (w : ℕ) (error : IoError)
  | recv (w : ℕ)
  | recvErr (w : ℕ)
  | finish
  /-- The last clone of the runtime is dropped. -/
  | drop
  | shutdown (outcome : Outcome) (handles w : ℕ)
  | joined (outcome : Outcome) (handles w : ℕ)
  | freed (outcome : Outcome) (handles : ℕ)
  | build (w : ℕ)
  /-- `expect("worker runtime should build")` panics. -/
  | buildErr (w : ℕ)
  | send (w : ℕ)
  | exit (w : ℕ)
  /-- `spawn_task` is called, on the thread of a worker or on another one. -/
  | call (thread : Option ℕ)
  | step (c : Call)
deriving DecidableEq, Repr

def guard (n : ℕ) : Lbl → St → Prop
  | .validate, s => s.owner = .validating
  | .spawn w, s => s.owner = .spawning w ∧ w < n
  | .spawnErr w _, s => s.owner = .spawning w ∧ w < n
  | .recv w, s => s.owner = .receiving w ∧ s.channel w = true
  | .recvErr w, s => s.owner = .receiving w ∧ s.channel w = false ∧ s.thread w = .ended
  | .finish, s => s.owner = .spawning n
  | .drop, s => s.owner = .started ∧ s.calls = 0
  | .shutdown o m w, s => s.owner = .dropping o m w false ∧ w < m
  | .joined o m w, s => s.owner = .dropping o m w true ∧ s.thread w = .ended
  | .freed o m, s => s.owner = .dropping o m m false
  | .build w, s => s.thread w = .building
  | .buildErr w, s => s.thread w = .building
  | .send w, s => s.thread w = .sending
  | .exit w, s => s.thread w = .parked ∧ s.shutdown w = true
  | .call thread, s => s.owner = .started ∧ ∀ w ∈ thread, s.thread w = .parked
  | .step c, s => c ∈ s.calls

instance (n : ℕ) (l : Lbl) (s : St) : Decidable (guard n l s) := by
  cases l <;> unfold guard <;> infer_instance

def St.setThread (s : St) (w : ℕ) (pc : ThreadPc) : St :=
  { s with thread := Function.update s.thread w pc }

def update (config : WorkerCount) (n : ℕ) : Lbl → St → St
  | .validate, s =>
      match validate config with
      | .ok () => { s with owner := .spawning 0 }
      | .error error => { s with owner := .done (.failed error) }
  | .spawn w, s => { s.setThread w .building with owner := .receiving w }
  | .spawnErr w error, s => { s with owner := .dropping (.failed (.ofIo error)) w 0 false }
  | .recv w, s =>
      { s with channel := Function.update s.channel w false, owner := .spawning (w + 1) }
  | .recvErr w, s =>
      -- the `ShutdownSender` goes with the error
      { s with
        shutdown := Function.update s.shutdown w true
        owner :=
          .dropping (.failed (.ofIo ⟨.brokenPipe, "worker runtime stopped"⟩)) w 0 false }
  | .finish, s => { s with owner := .started }
  | .drop, s => { s with active := false, owner := .dropping .dropped n 0 false }
  | .shutdown o m w, s =>
      { s with shutdown := Function.update s.shutdown w true, owner := .dropping o m w true }
  | .joined o m w, s => { s with owner := .dropping o m (w + 1) false }
  | .freed o _, s => { s with owner := .done o }
  | .build w, s => s.setThread w .sending
  | .buildErr w, s => s.setThread w .ended
  | .send w, s =>
      -- the receiver is alive as long as `start_worker` has not returned
      if s.owner = .receiving w then
        { s.setThread w .parked with channel := Function.update s.channel w true }
      else s.setThread w .ended
  | .exit w, s => s.setThread w .ended
  | .call thread, s => { s with calls := ⟨thread, .ensure⟩ ::ₘ s.calls }
  | .step c, s => s.callStep n c

/-- The life of a runtime on a machine with `cpus` processors. -/
def life (config : WorkerCount) (cpus : ℕ) : Lts.Sys St Lbl where
  init := initial
  guard := guard (workerCount cpus config)
  update := update config (workerCount cpus config)

instance (config : WorkerCount) (cpus : ℕ) (l : Lbl) (s : St) :
    Decidable ((life config cpus).guard l s) :=
  inferInstanceAs (Decidable (guard _ l s))

/-! ## Where the threads are -/

namespace St

/-- The thread serves, and nobody has told it to stop. -/
def Parked (s : St) (u : ℕ) : Prop := s.thread u = .parked ∧ s.shutdown u = false

/-- Nothing has happened to the thread yet. -/
def Fresh (s : St) (u : ℕ) : Prop :=
  s.thread u = .unborn ∧ s.channel u = false ∧ s.shutdown u = false

/-- There is no such thread, or no more. -/
def Gone (s : St) (u : ℕ) : Prop := s.thread u = .unborn ∨ s.thread u = .ended

/-- The thread that `start` is waiting for: its handle is in the channel as soon as it serves. -/
structure Starting (s : St) (w : ℕ) : Prop where
  born : s.thread w ≠ .unborn
  told : s.shutdown w = false
  sent : s.channel w = true ↔ s.thread w = .parked

/-- The destructor of `m` handles has come to the `w`-th. -/
structure Dying (s : St) (m w : ℕ) (joining : Bool) : Prop where
  le : w ≤ m
  before : ∀ u < w, s.Gone u
  told : joining = true →
    w < m ∧ s.shutdown w = true ∧ (s.thread w = .parked ∨ s.thread w = .ended)
  after : ∀ u, w ≤ u → u < m → (u = w → joining = false) → s.Parked u
  others : ∀ u, m ≤ u → s.Gone u

end St

/-- Where the threads are, by where the owner is. -/
def Placed (n : ℕ) (s : St) : OwnerPc → Prop
  | .validating => ∀ u, s.Fresh u
  | .spawning w => w ≤ n ∧ (∀ u < w, s.Parked u) ∧ ∀ u, w ≤ u → s.Fresh u
  | .receiving w =>
      w < n ∧ (∀ u < w, s.Parked u) ∧ s.Starting w ∧ ∀ u, w < u → s.Fresh u
  | .started => (∀ u < n, s.Parked u) ∧ ∀ u, n ≤ u → s.Fresh u
  | .dropping _ m w joining => m ≤ n ∧ s.Dying m w joining
  | .done _ => ∀ u, s.Gone u

section Placed

variable {n w : ℕ} {s : St}

/-- What can be said of each thread: it has not begun, it serves, it is gone, `start` waits for
it, or the destructor does. -/
theorem placed_cases (h : Placed n s s.owner) (w : ℕ) :
    s.Fresh w ∨ s.Parked w ∨ s.Gone w ∨ (s.owner = .receiving w ∧ s.Starting w) ∨
      ∃ o m, s.owner = .dropping o m w true ∧ m ≤ n ∧ s.Dying m w true := by
  cases howner : s.owner with
  | validating =>
      rw [howner] at h
      exact Or.inl (h w)
  | spawning v =>
      rw [howner] at h
      rcases Nat.lt_or_ge w v with hlt | hge
      · exact Or.inr (Or.inl (h.2.1 w hlt))
      · exact Or.inl (h.2.2 w hge)
  | receiving v =>
      rw [howner] at h
      rcases Nat.lt_trichotomy w v with hlt | rfl | hgt
      · exact Or.inr (Or.inl (h.2.1 w hlt))
      · exact Or.inr (Or.inr (Or.inr (Or.inl ⟨rfl, h.2.2.1⟩)))
      · exact Or.inl (h.2.2.2 w hgt)
  | started =>
      rw [howner] at h
      rcases Nat.lt_or_ge w n with hlt | hge
      · exact Or.inr (Or.inl (h.1 w hlt))
      · exact Or.inl (h.2 w hge)
  | dropping o m v joining =>
      rw [howner] at h
      rcases h with ⟨hm, h⟩
      rcases Nat.lt_or_ge w v with hlt | hge
      · exact Or.inr (Or.inr (Or.inl (h.before w hlt)))
      · rcases Nat.lt_or_ge w m with hlt' | hge'
        · by_cases hjoin : w = v ∧ joining = true
          · obtain ⟨rfl, rfl⟩ := hjoin
            exact Or.inr (Or.inr (Or.inr (Or.inr ⟨o, m, rfl, hm, h⟩)))
          · refine Or.inr (Or.inl (h.after w hge hlt' ?_))
            intro hv
            simpa [hv] using hjoin
        · exact Or.inr (Or.inr (Or.inl (h.others w hge')))
  | done o =>
      rw [howner] at h
      exact Or.inr (Or.inr (Or.inl (h w)))

/-- Only the thread that `start` waits for is on its way. -/
theorem owner_of_starting (h : Placed n s s.owner)
    (hw : s.thread w = .building ∨ s.thread w = .sending) :
    s.owner = .receiving w ∧ s.Starting w := by
  rcases placed_cases h w with
    ⟨hthread, _⟩ | ⟨hthread, _⟩ | hthread | hstarting | ⟨o, m, _, _, hdying⟩
  · rcases hw with hw | hw <;> rw [hthread] at hw <;> cases hw
  · rcases hw with hw | hw <;> rw [hthread] at hw <;> cases hw
  · rcases hthread with hthread | hthread <;> rcases hw with hw | hw <;> rw [hthread] at hw <;>
      cases hw
  · exact hstarting
  · rcases (hdying.told rfl).2.2 with hthread | hthread <;> rcases hw with hw | hw <;>
      rw [hthread] at hw <;> cases hw

/-- Only the thread that is being joined leaves. -/
theorem owner_of_exiting (h : Placed n s s.owner) (hw : s.thread w = .parked)
    (hshutdown : s.shutdown w = true) :
    ∃ o m, s.owner = .dropping o m w true ∧ m ≤ n ∧ s.Dying m w true := by
  rcases placed_cases h w with ⟨hthread, _⟩ | ⟨_, htold⟩ | hthread | ⟨_, hstarting⟩ | hdying
  · rw [hthread] at hw
    cases hw
  · rw [htold] at hshutdown
    cases hshutdown
  · rcases hthread with hthread | hthread <;> rw [hthread] at hw <;> cases hw
  · rw [hstarting.told] at hshutdown
    cases hshutdown
  · exact hdying

/-- Nothing but the threads and their channels matters. -/
theorem Placed.congr {s' : St} {o : OwnerPc} (hthread : s'.thread = s.thread)
    (hchannel : s'.channel = s.channel) (hshutdown : s'.shutdown = s.shutdown)
    (h : Placed n s o) : Placed n s' o := by
  have hfresh : ∀ u, s.Fresh u → s'.Fresh u := by
    intro u hu
    unfold St.Fresh
    rw [hthread, hchannel, hshutdown]
    exact hu
  have hparked : ∀ u, s.Parked u → s'.Parked u := by
    intro u hu
    unfold St.Parked
    rw [hthread, hshutdown]
    exact hu
  have hgone : ∀ u, s.Gone u → s'.Gone u := by
    intro u hu
    unfold St.Gone
    rw [hthread]
    exact hu
  cases o with
  | validating => exact fun u => hfresh u (h u)
  | spawning w => exact ⟨h.1, fun u hu => hparked u (h.2.1 u hu), fun u hu => hfresh u (h.2.2 u hu)⟩
  | receiving w =>
      rcases h with ⟨hw, hbefore, ⟨hborn, htold, hsent⟩, hafter⟩
      refine ⟨hw, fun u hu => hparked u (hbefore u hu), ⟨?_, ?_, ?_⟩,
        fun u hu => hfresh u (hafter u hu)⟩
      · rw [hthread]
        exact hborn
      · rw [hshutdown]
        exact htold
      · rw [hchannel, hthread]
        exact hsent
  | started => exact ⟨fun u hu => hparked u (h.1 u hu), fun u hu => hfresh u (h.2 u hu)⟩
  | dropping o m w joining =>
      rcases h with ⟨hm, hle, hbefore, htold, hafter, hothers⟩
      refine ⟨hm, hle, fun u hu => hgone u (hbefore u hu), ?_,
        fun u hu hm hj => hparked u (hafter u hu hm hj), fun u hu => hgone u (hothers u hu)⟩
      rw [hthread, hshutdown]
      exact htold
  | done o => exact fun u => hgone u (h u)

/-! ### The steps of the owner -/

theorem placed_validate {config : WorkerCount} (howner : s.owner = .validating)
    (h : Placed n s s.owner) :
    Placed n (update config n .validate s) (update config n .validate s).owner := by
  rw [howner] at h
  simp only [update]
  cases validate config with
  | ok _ => exact ⟨Nat.zero_le n, fun u hu => absurd hu (Nat.not_lt_zero u), fun u _ => h u⟩
  | error e => exact fun u => Or.inl (h u).1

theorem placed_spawn (hw : w < n) (h : Placed n s (.spawning w)) :
    Placed n { s.setThread w .building with owner := .receiving w } (.receiving w) := by
  rcases h with ⟨_, hbefore, hafter⟩
  have hw' := hafter w (le_refl w)
  have hother : ∀ u, u ≠ w → (s.setThread w .building).thread u = s.thread u := by
    intro u hu
    exact Function.update_of_ne hu _ _
  refine ⟨hw, ?_, ⟨?_, hw'.2.2, ?_⟩, ?_⟩
  · intro u hu
    exact ⟨(hother u (Nat.ne_of_lt hu)).trans (hbefore u hu).1, (hbefore u hu).2⟩
  · simp [St.setThread]
  · -- nothing has been sent yet
    simp [St.setThread, hw'.2.1]
  · intro u hu
    have hu' := hafter u (Nat.le_of_lt hu)
    exact ⟨(hother u (Nat.ne_of_gt hu)).trans hu'.1, hu'.2⟩

/-- The handles that were collected are dropped: their threads serve, the others are gone. -/
theorem dying_zero (hbefore : ∀ u < w, s.Parked u) (hothers : ∀ u, w ≤ u → s.Gone u) :
    s.Dying w 0 false where
  le := Nat.zero_le w
  before := fun u hu => absurd hu (Nat.not_lt_zero u)
  told := by
    intro hfalse
    cases hfalse
  after := fun u _ hu _ => hbefore u hu
  others := hothers

theorem placed_recv (hsent : s.channel w = true) (h : Placed n s (.receiving w)) :
    Placed n { s with channel := Function.update s.channel w false, owner := .spawning (w + 1) }
      (.spawning (w + 1)) := by
  rcases h with ⟨hw, hbefore, hstarting, hafter⟩
  refine ⟨hw, ?_, ?_⟩
  · intro u hu
    rcases Nat.lt_succ_iff_lt_or_eq.mp hu with hlt | rfl
    · exact hbefore u hlt
    · exact ⟨hstarting.sent.mp hsent, hstarting.told⟩
  · intro u hu
    have hu' := hafter u hu
    refine ⟨hu'.1, ?_, hu'.2.2⟩
    show Function.update s.channel w false u = false
    rw [Function.update_of_ne (Nat.ne_of_gt hu)]
    exact hu'.2.1

theorem placed_recvErr {o : Outcome} (hended : s.thread w = .ended)
    (h : Placed n s (.receiving w)) :
    Placed n { s with
      shutdown := Function.update s.shutdown w true
      owner := .dropping o w 0 false } (.dropping o w 0 false) := by
  rcases h with ⟨hw, hbefore, _, hafter⟩
  refine ⟨Nat.le_of_lt hw, dying_zero ?_ ?_⟩
  · intro u hu
    refine ⟨(hbefore u hu).1, ?_⟩
    show Function.update s.shutdown w true u = false
    rw [Function.update_of_ne (Nat.ne_of_lt hu)]
    exact (hbefore u hu).2
  · intro u hu
    rcases Nat.eq_or_lt_of_le hu with rfl | hlt
    · exact Or.inr hended
    · exact Or.inl (hafter u hlt).1

theorem placed_shutdown {o : Outcome} {m : ℕ} (hw : w < m)
    (h : Placed n s (.dropping o m w false)) :
    Placed n { s with
      shutdown := Function.update s.shutdown w true
      owner := .dropping o m w true } (.dropping o m w true) := by
  rcases h with ⟨hm, h⟩
  have hparked := h.after w (le_refl w) hw fun _ => rfl
  refine ⟨hm, h.le, h.before, ?_, ?_, h.others⟩
  · intro _
    exact ⟨hw, Function.update_self w true s.shutdown, Or.inl hparked.1⟩
  · intro u hle hu hjoin
    have hne : u ≠ w := by
      intro heq
      cases hjoin heq
    have hu' := h.after u hle hu fun _ => rfl
    refine ⟨hu'.1, ?_⟩
    show Function.update s.shutdown w true u = false
    rw [Function.update_of_ne hne]
    exact hu'.2

theorem placed_joined {o : Outcome} {m : ℕ} (hended : s.thread w = .ended)
    (h : Placed n s (.dropping o m w true)) :
    Placed n { s with owner := .dropping o m (w + 1) false } (.dropping o m (w + 1) false) := by
  rcases h with ⟨hm, h⟩
  refine ⟨hm, (h.told rfl).1, ?_, (by rintro ⟨⟩), ?_, h.others⟩
  · intro u hu
    rcases Nat.lt_succ_iff_lt_or_eq.mp hu with hlt | rfl
    · exact h.before u hlt
    · exact Or.inr hended
  · intro u hle hu _
    refine h.after u (Nat.le_of_lt hle) hu ?_
    intro heq
    omega

theorem placed_freed {o : Outcome} {m : ℕ} (h : Placed n s (.dropping o m m false)) :
    Placed n { s with owner := .done o } (.done o) := by
  intro u
  rcases Nat.lt_or_ge u m with hlt | hge
  · exact h.2.before u hlt
  · exact h.2.others u hge

/-! ### The steps of the threads -/

/-- The thread that `start` waits for takes a step. -/
theorem placed_starting {s' : St} (h : Placed n s (.receiving w)) (hstarting : s'.Starting w)
    (hthread : ∀ u, u ≠ w → s'.thread u = s.thread u)
    (hchannel : ∀ u, u ≠ w → s'.channel u = s.channel u) (hshutdown : s'.shutdown = s.shutdown) :
    Placed n s' (.receiving w) := by
  rcases h with ⟨hw, hbefore, _, hafter⟩
  refine ⟨hw, ?_, hstarting, ?_⟩
  · intro u hu
    have hne := Nat.ne_of_lt hu
    unfold St.Parked
    rw [hthread u hne, hshutdown]
    exact hbefore u hu
  · intro u hu
    have hne := Nat.ne_of_gt hu
    unfold St.Fresh
    rw [hthread u hne, hchannel u hne, hshutdown]
    exact hafter u hu

/-- The thread that `start` waits for has built its executor, or has panicked. -/
theorem placed_built {pc : ThreadPc} (hbuilding : s.thread w = .building)
    (hpc : pc = .sending ∨ pc = .ended) (h : Placed n s s.owner) :
    Placed n (s.setThread w pc) (s.setThread w pc).owner := by
  rcases owner_of_starting h (Or.inl hbuilding) with ⟨howner, hstarting⟩
  show Placed n (s.setThread w pc) s.owner
  rw [howner] at h ⊢
  refine placed_starting h ⟨?_, hstarting.told, ?_⟩
    (fun u hu => Function.update_of_ne hu _ _) (fun _ _ => rfl) rfl
  · rcases hpc with rfl | rfl <;> simp [St.setThread]
  · -- either way no handle has been sent
    have hsent := hstarting.sent
    rw [hbuilding] at hsent
    rcases hpc with rfl | rfl <;> simpa [St.setThread] using hsent

/-- The thread that is being joined leaves. -/
theorem placed_exit {o : Outcome} {m : ℕ} (hm : m ≤ n) (h : s.Dying m w true) :
    Placed n (s.setThread w .ended) (.dropping o m w true) := by
  have hother : ∀ u, u ≠ w → (s.setThread w .ended).thread u = s.thread u := by
    intro u hu
    exact Function.update_of_ne hu _ _
  refine ⟨hm, h.le, ?_, ?_, ?_, ?_⟩
  · intro u hu
    unfold St.Gone
    rw [hother u (Nat.ne_of_lt hu)]
    exact h.before u hu
  · intro _
    rcases h.told rfl with ⟨hw, hshutdown, _⟩
    exact ⟨hw, hshutdown, Or.inr (Function.update_self w _ _)⟩
  · intro u hle hu hjoin
    have hne : u ≠ w := by
      intro heq
      cases hjoin heq
    exact ⟨(hother u hne).trans (h.after u hle hu hjoin).1, (h.after u hle hu hjoin).2⟩
  · intro u hu
    unfold St.Gone
    rw [hother u (Nat.ne_of_gt (Nat.lt_of_lt_of_le (h.told rfl).1 hu))]
    exact h.others u hu

end Placed

/-- A call touches neither the threads nor their channels. -/
theorem callStep_frame (n : ℕ) (s : St) (c : Call) :
    (s.callStep n c).thread = s.thread ∧ (s.callStep n c).channel = s.channel ∧
      (s.callStep n c).shutdown = s.shutdown ∧ (s.callStep n c).owner = s.owner ∧
      (s.callStep n c).active = s.active := by
  have hproceed : ∀ (s : St) next, (s.proceed c next).thread = s.thread ∧
      (s.proceed c next).channel = s.channel ∧ (s.proceed c next).shutdown = s.shutdown ∧
      (s.proceed c next).owner = s.owner ∧ (s.proceed c next).active = s.active := by
    intro s next
    cases next <;> exact ⟨rfl, rfl, rfl, rfl, rfl⟩
  unfold St.callStep
  cases c.pc with
  | ensure | locate | ensureAgain | submit w => exact hproceed s _
  | ticket =>
      simp only
      split
      · exact hproceed s _
      · exact hproceed _ _

theorem placed_step {config : WorkerCount} {n : ℕ} {l : Lbl} {s : St} (hg : guard n l s)
    (h : Placed n s s.owner) :
    Placed n (update config n l s) (update config n l s).owner := by
  cases l with
  | validate => exact placed_validate hg h
  | spawn w =>
      rw [hg.1] at h
      exact placed_spawn hg.2 h
  | spawnErr w error =>
      rw [hg.1] at h
      exact ⟨Nat.le_of_lt hg.2, dying_zero h.2.1 fun u hu => Or.inl (h.2.2 u hu).1⟩
  | recv w =>
      rw [hg.1] at h
      exact placed_recv hg.2 h
  | recvErr w =>
      rw [hg.1] at h
      exact placed_recvErr hg.2.2 h
  | finish =>
      rw [show s.owner = .spawning n from hg] at h
      exact h.2
  | drop =>
      rw [hg.1] at h
      exact ⟨le_refl n, dying_zero h.1 fun u hu => Or.inl (h.2 u hu).1⟩
  | shutdown o m w =>
      rw [hg.1] at h
      exact placed_shutdown hg.2 h
  | joined o m w =>
      rw [hg.1] at h
      exact placed_joined hg.2 h
  | freed o m =>
      rw [show s.owner = .dropping o m m false from hg] at h
      exact placed_freed h
  | build w => exact placed_built hg (Or.inl rfl) h
  | buildErr w => exact placed_built hg (Or.inr rfl) h
  | send w =>
      rcases owner_of_starting h (Or.inr hg) with ⟨howner, hstarting⟩
      rw [howner] at h
      simp only [update, if_pos howner]
      show Placed n _ s.owner
      rw [howner]
      refine placed_starting h ⟨by simp [St.setThread], hstarting.told, by simp [St.setThread]⟩
        (fun u hu => Function.update_of_ne hu _ _) (fun u hu => Function.update_of_ne hu _ _) rfl
  | exit w =>
      rcases owner_of_exiting h hg.1 hg.2 with ⟨o, m, howner, hm, hdying⟩
      show Placed n (s.setThread w .ended) s.owner
      rw [howner]
      exact placed_exit hm hdying
  | call thread => exact Placed.congr (s := s) rfl rfl rfl h
  | step c =>
      rcases callStep_frame n s c with ⟨hthread, hchannel, hshutdown, howner, _⟩
      show Placed n (s.callStep n c) (s.callStep n c).owner
      rw [howner]
      exact h.congr hthread hchannel hshutdown

/-- The threads are in place in every reachable state. -/
theorem reachable_placed {config : WorkerCount} {cpus : ℕ} {s : St}
    (hs : (life config cpus).Reachable s) : Placed (workerCount cpus config) s s.owner :=
  (life config cpus).invariant (fun s => Placed (workerCount cpus config) s s.owner)
    (fun _ => ⟨rfl, rfl, rfl⟩) (fun _ _ hg h => placed_step hg h) s hs

/-! ## Nothing hangs -/

/-- The steps that the application has no say in: it decides when to drop the runtime and when to
call `spawn_task`. -/
def isOwn : Lbl → Bool
  | .drop | .call _ => false
  | _ => true

/-- The runtime left to itself. -/
def alone (config : WorkerCount) (cpus : ℕ) : Lts.Sys St Lbl :=
  (life config cpus).restrict fun l _ => isOwn l = true

/-- The steps that the owner has ahead of it: the handles that it may have to drop come on top of
the threads that it has to start. -/
def ownerRank (n : ℕ) : OwnerPc → ℕ
  | .validating => 4 * n + 5
  | .spawning w => 2 * n + 2 + (2 * (n - w) + 1)
  | .receiving w => 2 * n + 2 + 2 * (n - w)
  | .started => 0
  | .dropping _ m w false => 2 * (m - w) + 1
  | .dropping _ m w true => 2 * (m - w)
  | .done _ => 0

def threadRank : ThreadPc → ℕ
  | .unborn => 4
  | .building => 3
  | .sending => 2
  | .parked => 1
  | .ended => 0

def callRank (c : Call) : ℕ :=
  match c.pc with
  | .ensure => 5
  | .locate => 4
  | .ensureAgain => 3
  | .ticket => 2
  | .submit _ => 1

def rank (n : ℕ) (s : St) : ℕ :=
  ownerRank n s.owner + ∑ w ∈ Finset.range n, threadRank (s.thread w) + (s.calls.map callRank).sum

section Rank

variable {n : ℕ} {s s' : St}

/-- The owner gets on, with the same threads and calls. -/
theorem rank_owner (hthread : s'.thread = s.thread) (hcalls : s'.calls = s.calls)
    (howner : ownerRank n s'.owner < ownerRank n s.owner) : rank n s' < rank n s := by
  unfold rank
  rw [hthread, hcalls]
  omega

/-- A thread gets on, and perhaps the owner with it. -/
theorem rank_thread {w : ℕ} {pc : ThreadPc} (hw : w < n)
    (hthread : s'.thread = Function.update s.thread w pc) (hcalls : s'.calls = s.calls)
    (howner : ownerRank n s'.owner ≤ ownerRank n s.owner)
    (hless : threadRank pc < threadRank (s.thread w)) : rank n s' < rank n s := by
  have hsum := Lts.sum_update (g := s.thread) threadRank n pc hw
  unfold rank
  rw [hthread, hcalls]
  omega

/-- A call gets on, or returns. -/
theorem rank_proceed {c : Call} (hc : c ∈ s.calls) {next : CallPc ⊕ Except Error ℕ}
    (hless : next.elim (fun pc => callRank ⟨c.thread, pc⟩) (fun _ => 0) < callRank c) :
    rank n (s.proceed c next) < rank n s := by
  have hsum : (s.calls.map callRank).sum = callRank c + ((s.calls.erase c).map callRank).sum := by
    nth_rewrite 1 [← Multiset.cons_erase hc]
    rw [Multiset.map_cons, Multiset.sum_cons]
  cases next with
  | inl pc =>
      have hnew : ((⟨c.thread, pc⟩ ::ₘ s.calls.erase c).map callRank).sum =
          callRank ⟨c.thread, pc⟩ + ((s.calls.erase c).map callRank).sum := by
        rw [Multiset.map_cons, Multiset.sum_cons]
      simp only [Sum.elim_inl] at hless
      simp only [rank, St.proceed, hsum, hnew]
      omega
  | inr result =>
      simp only [Sum.elim_inr] at hless
      simp only [rank, St.proceed, hsum]
      omega

theorem rank_callStep {c : Call} (hc : c ∈ s.calls) : rank n (s.callStep n c) < rank n s := by
  rcases c with ⟨thread, pc⟩
  cases pc with
  | ensure =>
      refine rank_proceed hc ?_
      cases s.active <;> simp [callRank]
  | locate =>
      refine rank_proceed hc ?_
      cases currentWorkerId n thread <;> simp [callRank]
  | ensureAgain =>
      refine rank_proceed hc ?_
      cases s.active <;> simp [callRank]
  | ticket =>
      simp only [St.callStep]
      split
      · exact rank_proceed hc (by simp [callRank])
      · exact @rank_proceed n { s with nextWorker := s.nextWorker + 1, tickets := s.tickets + 1 }
          ⟨thread, .ticket⟩ hc (.inl (.submit (s.nextWorker.toNat % n))) (by simp [callRank])
  | submit w => exact rank_proceed hc (by simp [callRank])

end Rank

theorem rank_step {config : WorkerCount} {n : ℕ} {l : Lbl} {s : St} (hg : guard n l s)
    (hown : isOwn l = true) (h : Placed n s s.owner) : rank n (update config n l s) < rank n s := by
  cases l with
  | validate =>
      have howner : s.owner = .validating := hg
      simp only [update]
      cases validate config with
      | ok _ =>
          refine rank_owner rfl rfl ?_
          simp only [howner, ownerRank]
          omega
      | error e =>
          refine rank_owner rfl rfl ?_
          simp [howner, ownerRank]
  | spawn w =>
      rw [hg.1] at h
      refine rank_thread hg.2 rfl rfl ?_ ?_
      · simp only [update, hg.1, ownerRank]
        omega
      · rw [(h.2.2 w (le_refl w)).1]
        decide
  | spawnErr w error =>
      have hw := hg.2
      refine rank_owner rfl rfl ?_
      simp only [update, hg.1, ownerRank]
      omega
  | recv w =>
      rw [hg.1] at h
      have hw := h.1
      refine rank_owner rfl rfl ?_
      simp only [update, hg.1, ownerRank]
      omega
  | recvErr w =>
      rw [hg.1] at h
      have hw := h.1
      refine rank_owner rfl rfl ?_
      simp only [update, hg.1, ownerRank]
      omega
  | finish =>
      refine rank_owner rfl rfl ?_
      simp only [update, show s.owner = .spawning n from hg, ownerRank]
      omega
  | drop => cases hown
  | shutdown o m w =>
      refine rank_owner rfl rfl ?_
      simp only [update, hg.1, ownerRank]
      omega
  | joined o m w =>
      rw [hg.1] at h
      have hw := (h.2.told rfl).1
      refine rank_owner rfl rfl ?_
      simp only [update, hg.1, ownerRank]
      omega
  | freed o m =>
      refine rank_owner rfl rfl ?_
      simp [update, show s.owner = .dropping o m m false from hg, ownerRank]
  | build w =>
      rcases owner_of_starting h (Or.inl hg) with ⟨howner, _⟩
      rw [howner] at h
      refine rank_thread h.1 rfl rfl (le_refl _) ?_
      rw [show s.thread w = .building from hg]
      decide
  | buildErr w =>
      rcases owner_of_starting h (Or.inl hg) with ⟨howner, _⟩
      rw [howner] at h
      refine rank_thread h.1 rfl rfl (le_refl _) ?_
      rw [show s.thread w = .building from hg]
      decide
  | send w =>
      rcases owner_of_starting h (Or.inr hg) with ⟨howner, _⟩
      rw [howner] at h
      simp only [update, if_pos howner]
      refine rank_thread h.1 rfl rfl (le_refl _) ?_
      rw [show s.thread w = .sending from hg]
      decide
  | exit w =>
      rcases owner_of_exiting h hg.1 hg.2 with ⟨o, m, _, hm, hdying⟩
      refine rank_thread (Nat.lt_of_lt_of_le (hdying.told rfl).1 hm) rfl rfl (le_refl _) ?_
      rw [hg.1]
      decide
  | call thread => cases hown
  | step c => exact rank_callStep hg

theorem ranked_alone (config : WorkerCount) (cpus : ℕ) :
    Lts.Ranked (alone config cpus) (fun s => Placed (workerCount cpus config) s s.owner)
      (rank (workerCount cpus config)) where
  keeps := fun _ _ hg h => placed_step hg.1 h
  lowers := fun _ _ hg h => rank_step hg.1 hg.2 h

theorem rank_le (n : ℕ) {s : St} (h : Placed n s s.owner) :
    rank n s ≤ 8 * n + 5 + 5 * s.calls.card := by
  have howner : ownerRank n s.owner ≤ 4 * n + 5 := by
    cases hpc : s.owner with
    | dropping o m w joining =>
        rw [hpc] at h
        have hm := h.1
        cases joining <;> simp only [ownerRank] <;> omega
    | validating | spawning w | receiving w | started | done o =>
        simp only [ownerRank]
        omega
  have hthread : ∀ w ∈ Finset.range n, threadRank (s.thread w) ≤ 4 := by
    intro w _
    cases s.thread w <;> decide
  have hsum := Finset.sum_le_card_nsmul (Finset.range n) _ 4 hthread
  rw [Finset.card_range, smul_eq_mul] at hsum
  have hcall : ∀ r ∈ s.calls.map callRank, r ≤ 5 := by
    intro r hr
    rcases Multiset.mem_map.mp hr with ⟨⟨thread, pc⟩, _, rfl⟩
    cases pc <;> simp [callRank]
  have hcalls := Multiset.sum_le_card_nsmul (s.calls.map callRank) 5 hcall
  rw [Multiset.card_map, smul_eq_mul] at hcalls
  unfold rank
  omega

/-- Left to itself, the runtime stops only with no call under way, and when `start` or the
destructor has returned. -/
theorem returned_of_stuck {config : WorkerCount} {cpus : ℕ} {s : St}
    (hstuck : (alone config cpus).Stuck s) (h : Placed (workerCount cpus config) s s.owner) :
    s.calls = 0 ∧ (s.owner = .started ∨ ∃ o, s.owner = .done o) := by
  constructor
  · refine Multiset.eq_zero_of_forall_notMem ?_
    intro c hc
    exact hstuck (.step c) ⟨hc, rfl⟩
  · cases howner : s.owner with
    | validating => exact absurd ⟨howner, rfl⟩ (hstuck .validate)
    | spawning w =>
        rw [howner] at h
        rcases Nat.eq_or_lt_of_le h.1 with rfl | hlt
        · exact absurd ⟨howner, rfl⟩ (hstuck .finish)
        · exact absurd ⟨⟨howner, hlt⟩, rfl⟩ (hstuck (.spawn w))
    | receiving w =>
        rw [howner] at h
        have hstarting := h.2.2.1
        -- the thread has a step, or has sent its handle, or has dropped the sender
        cases hthread : s.thread w with
        | unborn => exact absurd hthread hstarting.born
        | building => exact absurd ⟨hthread, rfl⟩ (hstuck (.build w))
        | sending => exact absurd ⟨hthread, rfl⟩ (hstuck (.send w))
        | parked =>
            exact absurd ⟨⟨howner, hstarting.sent.mpr hthread⟩, rfl⟩ (hstuck (.recv w))
        | ended =>
            have hempty : s.channel w = false := by
              cases hchannel : s.channel w with
              | false => rfl
              | true =>
                  have hparked := hstarting.sent.mp hchannel
                  rw [hthread] at hparked
                  cases hparked
            exact absurd ⟨⟨howner, hempty, hthread⟩, rfl⟩ (hstuck (.recvErr w))
    | started => exact Or.inl rfl
    | dropping o m w joining =>
        rw [howner] at h
        rcases h with ⟨_, hdying⟩
        cases joining with
        | false =>
            rcases Nat.eq_or_lt_of_le hdying.le with rfl | hlt
            · exact absurd ⟨howner, rfl⟩ (hstuck (.freed o w))
            · exact absurd ⟨⟨howner, hlt⟩, rfl⟩ (hstuck (.shutdown o m w))
        | true =>
            rcases hdying.told rfl with ⟨_, hshutdown, hthread | hthread⟩
            · exact absurd ⟨⟨hthread, hshutdown⟩, rfl⟩ (hstuck (.exit w))
            · exact absurd ⟨⟨howner, hthread⟩, rfl⟩ (hstuck (.joined o m w))
    | done o => exact Or.inr ⟨o, rfl⟩

/-! ## Start and drop -/

/-- Past the validation, the configuration is valid. -/
def Validated (config : WorkerCount) : OwnerPc → Prop
  | .validating | .done _ => True
  | _ => validate config = .ok ()

theorem validated_step {config : WorkerCount} {n : ℕ} {l : Lbl} {s : St} (hg : guard n l s)
    (h : Validated config s.owner) : Validated config (update config n l s).owner := by
  cases l with
  | validate =>
      simp only [update]
      cases hvalid : validate config with
      | ok _ => exact hvalid
      | error e => trivial
  | spawn w | spawnErr w error | recv w | recvErr w | drop | shutdown o m w | joined o m w =>
      rw [hg.1] at h
      exact h
  | finish =>
      rw [show s.owner = .spawning n from hg] at h
      exact h
  | freed o m => trivial
  | build w | buildErr w | exit w | call thread => exact h
  | send w =>
      simp only [update]
      split <;> exact h
  | step c =>
      show Validated config (s.callStep n c).owner
      rw [(callStep_frame n s c).2.2.2.1]
      exact h

theorem reachable_validated {config : WorkerCount} {cpus : ℕ} {s : St}
    (hs : (life config cpus).Reachable s) : Validated config s.owner :=
  (life config cpus).invariant (fun s => Validated config s.owner) trivial
    (fun _ _ hg h => validated_step hg h) s hs

/-- A runtime is started as a whole or not at all. Whatever fails on the way and in whatever order
the threads take their steps: a runtime that was started has at least one worker, and exactly its
worker threads serve; when `start` has failed, or the runtime was dropped, no thread is left. And
nothing hangs: from every reachable state, with no new call and no drop, at most
`8 * n + 5 + 5 * c` steps follow (`c` calls being under way), until all calls, and `start` or the
destructor, have returned. -/
theorem runtime_all_or_nothing (config : WorkerCount) (cpus : ℕ) {s : St}
    (hs : (life config cpus).Reachable s) :
    (s.owner = .started → 0 < workerCount cpus config ∧
      ∀ w, s.thread w = if w < workerCount cpus config then .parked else .unborn) ∧
    (∀ o, s.owner = .done o → ∀ w, s.thread w = .unborn ∨ s.thread w = .ended) ∧
    ∀ tr s', (alone config cpus).Run s tr s' →
      tr.length ≤ 8 * workerCount cpus config + 5 + 5 * s.calls.card ∧
      (∃ rest s'', (alone config cpus).Run s' rest s'' ∧ (alone config cpus).Stuck s'') ∧
      ((alone config cpus).Stuck s' →
        s'.calls = 0 ∧ (s'.owner = .started ∨ ∃ o, s'.owner = .done o)) := by
  have hplaced := reachable_placed hs
  refine ⟨?_, ?_, ?_⟩
  · intro hstarted
    have hvalid := reachable_validated hs
    rw [hstarted] at hplaced hvalid
    refine ⟨workerCount_pos hvalid, ?_⟩
    intro w
    split
    · rename_i hw
      exact (hplaced.1 w hw).1
    · rename_i hw
      exact (hplaced.2 w (Nat.le_of_not_lt hw)).1
  · intro o hdone
    rw [hdone] at hplaced
    exact hplaced
  · intro tr s' hrun
    rcases (ranked_alone config cpus).completes hplaced hrun with ⟨hlen, hstop⟩
    refine ⟨hlen.trans (rank_le _ hplaced), hstop, ?_⟩
    intro hstuck
    exact returned_of_stuck hstuck (hrun.preserves (fun t => Placed _ t t.owner) hplaced
      (ranked_alone config cpus).keeps)

/-- Two workers, and the second thread panics while it builds its executor: `start` returns an
error, and the first thread is gone. -/
theorem runtime_all_or_nothing_panic :
    ∃ s, (life (.fixed 2) 1).Reachable s ∧
      s.owner = .done (.failed (.socket "worker runtime stopped")) ∧ s.thread 0 = .ended ∧
      ∀ w, s.thread w = .unborn ∨ s.thread w = .ended := by
  have hexec := (life (.fixed 2) 1).exists_run_of_exec
    [.validate, .spawn 0, .build 0, .send 0, .recv 0, .spawn 1, .buildErr 1, .recvErr 1,
      .shutdown (.failed (.socket "worker runtime stopped")) 1 0, .exit 0,
      .joined (.failed (.socket "worker runtime stopped")) 1 0,
      .freed (.failed (.socket "worker runtime stopped")) 1]
    (fun s => s.owner = .done (.failed (.socket "worker runtime stopped")) ∧ s.thread 0 = .ended)
    (by decide)
  rcases hexec with ⟨s, hrun, howner, hended⟩
  have hs : (life (.fixed 2) 1).Reachable s := ⟨_, hrun⟩
  exact ⟨s, hs, howner, hended, (runtime_all_or_nothing (.fixed 2) 1 hs).2.1 _ howner⟩

end ReusePort.ServerRuntime
