import Mathlib
import ReusePort.Core.NativeService
import ReusePort.Core.WindDown

/-!
# ReusePort.Core.NativeWindDown — a closed native server comes to rest

In a native server every worker has its listener task and its handlers, which contend
for the counter of the worker: the task asks for a permit before it receives, and keeps
it until it has spawned a handler. With tokio, after `close` it is cancelled where it
awaits, or finds the flag cleared, and gives its permit back. With async-std a
cancellation reaches no task that another thread has started (`Cancels`): a TCP listener
that waits in `accept` stays there with its permit until a connection comes, while a UDP
or QUIC listener is woken by the datagram of `close`.

* `pollLimit_cases` — an access of `acquire` gets on with its own work, or has its turn;
* `rank_step` — every step of a closed worker lowers the rank;
* `native_winds_down`, with tokio;
* `receiving_asyncStd` — with async-std, the listener that stays.
-/

namespace ReusePort

theorem pollWork_le (limit : WorkerConcurrencyLimit) (pc : PollPc) : pollWork limit pc ≤ 4 := by
  cases limit with
  | none => simp [pollWork]
  | some c => exact Pool.pollCost_le c pc

/-- One access of `acquire`, in a future that is not suspended, leaves the counter alone, or gets
the permit. -/
theorem pollLimit_cases (limit : WorkerConcurrencyLimit) {pc : PollPc} (hpc : pc ≠ .pending) :
    (limit.poll false pc).2 = none ∨
      SameWork limit (limit.poll false pc).1 ∧
        ∃ pc', (limit.poll false pc).2 = some pc' ∧ pollWork limit pc' < pollWork limit pc := by
  cases limit with
  | none => exact Or.inl rfl
  | some c =>
      cases pc with
      | load =>
          refine Or.inr ⟨.refl _, _, rfl, ?_⟩
          by_cases hfree : c.active < c.max <;> simp [pollWork, Pool.pollCost, hfree]
      | cas active =>
          cases hcas : c.compareExchangeWeak active (active + 1) false with
          | some c' =>
              left
              simp only [WorkerConcurrencyLimit.poll, pollStep, hcas]
          | none =>
              -- the counter has changed since the load
              right
              have hne : ¬ active = c.active := by
                intro heq
                simp [ConcurrencyState.compareExchangeWeak, heq] at hcas
              have hstale : pollWork (some c) (.cas active) = 4 := if_neg hne
              have hload : pollWork (some c) .load ≤ 3 := by
                simp only [pollWork, Option.elim_some, Pool.pollCost]
                split <;> decide
              simp only [WorkerConcurrencyLimit.poll, pollStep, hcas]
              exact ⟨.refl _, .load, rfl, by omega⟩
      | register =>
          refine Or.inr ⟨sameWork_of_active (ConcurrencyState.register_active c)
            (ConcurrencyState.register_max c), _, rfl, ?_⟩
          by_cases hfree : c.active < c.max <;> simp [pollWork, Pool.pollCost, hfree]
      | reload =>
          refine Or.inr ⟨.refl _, _, rfl, ?_⟩
          by_cases hfree : c.active < c.max <;> simp [pollWork, Pool.pollCost, hfree]
      | pending => exact absurd rfl hpc

namespace Native

variable {α ρ β : Type}

/-! ## The closed server -/

/-- The steps of the workers themselves: no flag changes any more, no weak exchange fails for no
reason, and a suspended future is not polled again before it is dropped. -/
def isOwn : Lts.FleetLbl FlagLbl (Lbl α ρ β) → Bool
  | .env _ => false
  | .proc _ (.poll .pending _) => false
  | .proc _ (.poll _ spurious) | .proc _ (.drop _ _ spurious) => !spurious
  | .proc _ (.handlerDrop _ _ spurious) => !spurious
  | _ => true

/-- Where a cancellation by `close` takes effect, as for the simulated servers: anywhere with
tokio, and with async-std only before the task has been started. -/
def Cancels (runtime : Startup.Runtime) :
    Lts.FleetLbl FlagLbl (Lbl α ρ β) → Lts.Fleet Flags (Worker α ρ β) → Prop
  | .proc w .abort, s => runtime = .tokio ∨ (s.proc w).pc = .submitted
  | .proc _ .abortReceiving, _ => runtime = .tokio
  | _, _ => True

/-- The server left to itself, with the cancellations of the runtime. -/
def closing (runtime : Startup.Runtime) (L : NativeLoop α ρ β) (n : ℕ) (max : Option ℕ) :
    Lts.Sys (Lts.Fleet Flags (Worker α ρ β)) (Lts.FleetLbl FlagLbl (Lbl α ρ β)) :=
  (server L n max).restrict fun l s => isOwn l = true ∧ Cancels runtime l s

/-! ## What is left -/

def Pc.holders {κ : Type} : Pc κ → ℕ
  | .submitted | .check _ .head | .exited => 0
  | _ => 1

/-- A permit that is still to be taken is also to be given back. -/
def Pc.unsettled {κ : Type} : Pc κ → ℕ
  | .submitted | .check _ .head | .exited => 0
  | .acquiring _ => 2
  | .dropping pc _ => pc.unsettled
  | _ => 1

/-- The task with a permit, or asking for one. -/
def Pc.work {κ : Type} (limit : WorkerConcurrencyLimit) : Pc κ → ℕ
  | .submitted | .check _ .head | .exited => 0
  -- the two checks behind the permit find the flag cleared
  | .acquiring pc => 6 + pollWork limit pc
  | .check .runtime _ => 5
  | .check .server _ => 4
  | .receiving => 6
  | .spawning _ => 7
  | .dropping pc _ => dropWork limit pc

/-- The task without a permit, or before another turn. -/
def Pc.idle {κ : Type} : Pc κ → ℕ
  | .submitted => 3
  | .check .runtime .head | .dropping _ true => 2
  | .check .server .head => 1
  | _ => 0

/-- What the task and each handler of a worker count for. -/
def Worker.weigh (task : Pc (Received α ρ) → ℕ) (handler : Handler β → ℕ) (k : Worker α ρ β) : ℕ :=
  task k.pc + (k.handlers.map handler).sum

def Worker.holders (k : Worker α ρ β) : ℕ := k.weigh Pc.holders fun _ => 1

def Worker.unsettled (k : Worker α ρ β) : ℕ := k.weigh Pc.unsettled Handler.unsettled

def Worker.work (k : Worker α ρ β) : ℕ := k.weigh (Pc.work k.limit) (Handler.work k.limit)

/-- The steps that a closed worker has ahead of it. -/
def Worker.rank (k : Worker α ρ β) : ℕ :=
  Lts.contended 13 k.holders k.unsettled (k.work + k.pc.idle)

/-! ## Bounds -/

theorem Worker.weigh_le {task task' : Pc (Received α ρ) → ℕ} {m : ℕ}
    {handler handler' : Handler β → ℕ} (htask : ∀ pc, task pc ≤ m * task' pc)
    (hhandler : ∀ x, handler x ≤ m * handler' x) (k : Worker α ρ β) :
    k.weigh task handler ≤ m * k.weigh task' handler' := by
  have htask := htask k.pc
  have hsum := Handler.sum_le handler handler' m hhandler k.handlers
  unfold Worker.weigh
  rw [Nat.mul_add]
  omega

theorem Pc.work_le {κ : Type} (limit : WorkerConcurrencyLimit) (pc : Pc κ) :
    pc.work limit ≤ 13 * pc.holders := by
  cases pc with
  | submitted | receiving | spawning x | exited => simp [Pc.work, Pc.holders]
  | check c site => cases c <;> cases site <;> simp [Pc.work, Pc.holders]
  | acquiring pc =>
      have hpoll := pollWork_le limit pc
      simp only [Pc.work, Pc.holders]
      omega
  | dropping pc again =>
      have hdrop := dropWork_le limit pc
      simp only [Pc.work, Pc.holders]
      omega

theorem Worker.work_le (k : Worker α ρ β) : k.work ≤ 13 * k.holders := by
  refine Worker.weigh_le (Pc.work_le k.limit) ?_ k
  intro x
  have hx := Handler.work_le k.limit x
  omega

theorem Worker.unsettled_le (k : Worker α ρ β) : k.unsettled ≤ 2 * k.holders := by
  refine Worker.weigh_le ?_ ?_ k
  · intro pc
    cases pc with
    | submitted | receiving | spawning x | exited | acquiring pc => simp [Pc.unsettled, Pc.holders]
    | check c site => cases site <;> simp [Pc.unsettled, Pc.holders]
    | dropping pc again =>
        have hdrop := pc.unsettled_le
        simp only [Pc.unsettled, Pc.holders]
        omega
  · intro x
    have hx := x.unsettled_le
    omega

theorem Pc.idle_le {κ : Type} (pc : Pc κ) : pc.idle ≤ 3 := by
  cases pc with
  | check c site => cases c <;> cases site <;> simp [Pc.idle]
  | dropping pc again => cases again <;> simp [Pc.idle]
  | submitted | acquiring pc | receiving | spawning x | exited => simp [Pc.idle]

theorem Worker.rank_le (k : Worker α ρ β) :
    k.rank ≤ 26 * k.holders ^ 2 + 13 * k.holders + 3 := by
  have hunsettled : 13 * k.holders * k.unsettled ≤ 13 * k.holders * (2 * k.holders) :=
    Nat.mul_le_mul_left _ k.unsettled_le
  have hsquare : 13 * k.holders * (2 * k.holders) = 26 * k.holders ^ 2 := by ring
  have hwork := k.work_le
  have hidle := k.pc.idle_le
  unfold Worker.rank Lts.contended
  omega

/-! ## Two kinds of progress -/

section Rank

variable {k k' : Worker α ρ β}

theorem rank_own (hholders : k'.holders ≤ k.holders) (hunsettled : k'.unsettled ≤ k.unsettled)
    (hwork : k'.work + k'.pc.idle < k.work + k.pc.idle) : k'.rank < k.rank :=
  Lts.contended_own (g := 0) hholders hunsettled hwork

/-- After an exchange all work may have changed. -/
theorem rank_turn (hholders : k'.holders ≤ k.holders) (hunsettled : k'.unsettled < k.unsettled)
    (hidle : k'.pc.idle ≤ k.pc.idle) (hpos : 0 < k.work) : k'.rank < k.rank := by
  have hwork := k'.work_le
  refine Lts.contended_turn hholders hunsettled ?_
  omega

/-- The task goes from one place to the next, with the same limit and handlers. -/
theorem rank_move {pc pc' : Pc (Received α ρ)} (hpc : k.pc = pc) {buffer : List UInt8}
    (hholders : pc'.holders ≤ pc.holders) (hunsettled : pc'.unsettled ≤ pc.unsettled)
    (hwork : pc'.work k.limit + pc'.idle < pc.work k.limit + pc.idle) :
    Worker.rank { k with buffer := buffer, pc := pc' } < k.rank := by
  subst hpc
  refine rank_own ?_ ?_ ?_
  · simp only [Worker.holders, Worker.weigh]
    omega
  · simp only [Worker.unsettled, Worker.weigh]
    omega
  · simp only [Worker.work, Worker.weigh]
    omega

/-- The limit of a worker only counts by the work of its users. -/
theorem work_sameWork {limit limit' : WorkerConcurrencyLimit} (hsame : SameWork limit limit') :
    (Pc.work limit' : Pc (Received α ρ) → ℕ) = Pc.work limit ∧
      (Handler.work limit' : Handler β → ℕ) = Handler.work limit := by
  constructor
  · funext pc
    cases pc with
    | acquiring pc => simp only [Pc.work, hsame.polls]
    | dropping pc again => simp only [Pc.work, hsame.drops]
    | check c site => cases c <;> cases site <;> rfl
    | submitted | receiving | spawning x | exited => rfl
  · exact (Simulated.Worker.weigh_sameWork hsame).2

/-- An access of the task that leaves the counter alone. -/
theorem rank_access {pc pc' : Pc (Received α ρ)} (hpc : k.pc = pc) {limit : WorkerConcurrencyLimit}
    (hsame : SameWork k.limit limit) (hholders : pc'.holders ≤ pc.holders)
    (hunsettled : pc'.unsettled ≤ pc.unsettled)
    (hwork : pc'.work k.limit + pc'.idle < pc.work k.limit + pc.idle) :
    Worker.rank { k with limit := limit, pc := pc' } < k.rank := by
  rcases work_sameWork (α := α) (ρ := ρ) (β := β) hsame with ⟨htask, hhandler⟩
  subst hpc
  refine rank_own ?_ ?_ ?_
  · simp only [Worker.holders, Worker.weigh]
    omega
  · simp only [Worker.unsettled, Worker.weigh]
    omega
  · simp only [Worker.work, Worker.weigh, htask, hhandler]
    omega

/-- The exchange of the task. -/
theorem rank_exchange {pc pc' : Pc (Received α ρ)} (hpc : k.pc = pc)
    (limit : WorkerConcurrencyLimit) (hholders : pc'.holders ≤ pc.holders)
    (hunsettled : pc'.unsettled < pc.unsettled) (hidle : pc'.idle ≤ pc.idle)
    (hpos : 0 < pc.work k.limit) : Worker.rank { k with limit := limit, pc := pc' } < k.rank := by
  subst hpc
  refine rank_turn ?_ ?_ hidle ?_
  · simp only [Worker.holders, Worker.weigh]
    omega
  · simp only [Worker.unsettled, Worker.weigh]
    omega
  · simp only [Worker.work, Worker.weigh]
    omega

theorem rank_poll {pc : PollPc} (hpc : k.pc = .acquiring pc) (hpending : pc ≠ .pending) :
    (k.polled (k.limit.poll false pc)).rank < k.rank := by
  have hpolled : k.polled (k.limit.poll false pc) = { k with
      limit := (k.limit.poll false pc).1
      pc := (k.limit.poll false pc).2.elim (.check .runtime .permit) .acquiring } := by
    rcases k.limit.poll false pc with ⟨limit, _ | next⟩ <;> rfl
  rw [hpolled]
  rcases pollLimit_cases k.limit hpending with hgot | ⟨hsame, pc', hnext, hless⟩
  · -- the permit is taken, and is still to be given back
    rw [hgot]
    refine rank_exchange hpc _ (le_refl _) ?_ (le_refl _) ?_
    · simp [Pc.unsettled]
    · simp only [Pc.work]
      omega
  · rw [hnext]
    refine rank_access hpc hsame (le_refl _) (le_refl _) ?_
    simp only [Option.elim_some, Pc.work, Pc.idle]
    omega

theorem rank_drop {pc : DropPc} {again : Bool} (hpc : k.pc = .dropping pc again) :
    (k.dropped again (k.limit.drop false pc)).rank < k.rank := by
  have hpos := dropWork_pos k.limit pc
  have hcases := dropLimit_cases k.limit pc
  have hdropped : k.dropped again (k.limit.drop false pc) = { k with
      limit := (k.limit.drop false pc).1
      pc := (k.limit.drop false pc).2.elim (if again then .check .runtime .head else .exited)
        fun pc => .dropping pc again } := by
    rcases k.limit.drop false pc with ⟨limit, _ | next⟩ <;> rfl
  rw [hdropped]
  cases hnext : (k.limit.drop false pc).2 with
  | none =>
      -- the last access of a drop: it is over, and the counter stays
      rw [hnext] at hcases
      have hsame : SameWork k.limit (k.limit.drop false pc).1 := sameWork_of_dropped hnext
      refine rank_access hpc hsame ?_ ?_ ?_
      · cases again <;> exact Nat.zero_le _
      · cases again <;> exact Nat.zero_le _
      · cases again <;> simp [Pc.work, Pc.idle] <;> omega
  | some next =>
      rw [hnext] at hcases
      rcases hcases with ⟨hsettle, ⟨hsame, hless⟩ | hless⟩
      · refine rank_access hpc hsame (le_refl _) hsettle ?_
        have hidle : (Pc.dropping next again : Pc (Received α ρ)).idle =
            (Pc.dropping pc again : Pc (Received α ρ)).idle := by
          cases again <;> rfl
        have hless' : dropWork k.limit next < dropWork k.limit pc := hless
        show dropWork k.limit next + (Pc.dropping next again : Pc (Received α ρ)).idle < _
        rw [hidle]
        simp only [Pc.work]
        omega
      · refine rank_exchange hpc _ (le_refl _) hless ?_ hpos
        cases again <;> exact le_refl _

theorem rank_handlerEnd {i : ℕ} {x : Item β} (hi : k.handlers[i]? = some (.running x)) :
    Worker.rank { k with handlers := Handler.set k.handlers i (some .load) } < k.rank := by
  rcases Handler.sum_end k.limit hi with ⟨hH, hU, hW⟩
  refine rank_own ?_ ?_ ?_
  · exact Nat.add_le_add_left hH _
  · exact Nat.add_le_add_left hU _
  · exact Nat.add_lt_add_right (Nat.add_lt_add_left hW _) _

theorem rank_handlerDrop {i : ℕ} {pc : DropPc} (hi : k.handlers[i]? = some (.dropping pc)) :
    Worker.rank { k with
      limit := (k.limit.drop false pc).1
      handlers := Handler.set k.handlers i (k.limit.drop false pc).2 } < k.rank := by
  rcases Handler.sum_drop k.limit hi with ⟨hH, ⟨hsame, hU, hW⟩ | ⟨hU, hpos⟩⟩
  · refine rank_own ?_ ?_ ?_
    · exact Nat.add_le_add_left hH _
    · exact Nat.add_le_add_left hU _
    · rcases work_sameWork (α := α) (ρ := ρ) (β := β) hsame with ⟨htask, hhandler⟩
      simp only [Worker.work, Worker.weigh, htask, hhandler]
      omega
  · refine rank_turn ?_ ?_ (le_refl _) ?_
    · exact Nat.add_le_add_left hH _
    · exact Nat.add_lt_add_left hU _
    · simp only [Worker.work, Worker.weigh]
      omega

/-- A flag that is read as cleared ends the turn, and gives the permit back. -/
theorem rank_load {f : Flags} {c : Check} {site : Site (Received α ρ)} (hpc : k.pc = .check c site)
    (hclosed : f.serverActive = false) : (k.load site c (f.get c)).rank < k.rank := by
  have hload := dropWork_load k.limit
  -- the flag of the runtime may still be set, the one of the server is not
  have hleave : Worker.rank { k with pc := site.leave } < k.rank := by
    refine rank_move hpc ?_ ?_ ?_
    · cases site <;> simp [Site.leave, Pc.holders]
    · cases site <;> simp [Site.leave, Pc.unsettled, DropPc.unsettled, DropPc.live]
    · cases site <;> cases c <;> simp only [Site.leave, Pc.work, Pc.idle] <;> omega
  cases c with
  | server =>
      have hget : f.get .server = false := hclosed
      rw [hget]
      exact hleave
  | runtime =>
      cases f.get .runtime with
      | false => exact hleave
      | true =>
          refine rank_move hpc ?_ ?_ ?_
          · cases site <;> simp [Pc.holders]
          · cases site <;> simp [Pc.unsettled]
          · cases site <;> simp [Pc.work, Pc.idle]

/-- The permit of a turn is given back. -/
theorem rank_release {pc : Pc (Received α ρ)} (hpc : k.pc = pc) (again : Bool)
    (hholders : pc.holders = 1) (hunsettled : pc.unsettled = 1)
    (hwork : 5 < pc.work k.limit + pc.idle) :
    Worker.rank ({ k with pc := .dropping .load again } : Worker α ρ β) < k.rank := by
  have hload := dropWork_load k.limit
  have hdrop : (Pc.dropping .load again : Pc (Received α ρ)).work k.limit +
      (Pc.dropping .load again : Pc (Received α ρ)).idle ≤ 5 := by
    cases again <;> simp only [Pc.work, Pc.idle] <;> omega
  refine rank_move hpc ?_ ?_ (Nat.lt_of_le_of_lt hdrop hwork)
  · rw [hholders]
    exact le_refl _
  · rw [hunsettled]
    exact le_refl _

end Rank

/-- Every step of a worker of a closed server lowers its rank. -/
theorem rank_step {L : NativeLoop α ρ β} {n w : ℕ} {f : Flags} {l : Lbl α ρ β} {k : Worker α ρ β}
    (hg : guard L n l f k) (hown : isOwn (.proc w l : Lts.FleetLbl FlagLbl (Lbl α ρ β)) = true)
    (hclosed : f.serverActive = false) : (update L l f k).rank < k.rank := by
  cases l with
  | start =>
      exact rank_move hg (Nat.zero_le _) (Nat.zero_le _) (by simp [Pc.work, Pc.idle])
  | startErr =>
      exact rank_move hg (Nat.zero_le _) (Nat.zero_le _) (by simp [Pc.work, Pc.idle])
  | load c site => exact rank_load hg hclosed
  | poll pc spurious =>
      cases spurious with
      | true => cases pc <;> cases hown
      | false =>
          refine rank_poll hg ?_
          rintro rfl
          cases hown
  | recv origin a =>
      exact rank_move hg.1 (le_refl _) (le_refl _) (by simp [Pc.work, Pc.idle])
  | recvErr =>
      have hload := dropWork_load k.limit
      refine rank_move hg ?_ ?_ ?_
      · cases L.retriesOnError <;> simp [Pc.holders]
      · cases L.retriesOnError <;> simp [Pc.unsettled, DropPc.unsettled, DropPc.live]
      · cases L.retriesOnError
        · simp [Pc.work, Pc.idle]
          omega
        · simp [Pc.work, Pc.idle]
  -- a packet that the filter rejects costs the task its permit, and another turn follows
  | reject x => exact rank_release hg.1 true rfl rfl (by simp [Pc.work, Pc.idle])
  | spawn x =>
      have hpc : k.pc = .spawning x := hg.1
      refine rank_own ?_ ?_ ?_
      · simp only [update, Worker.holders, Worker.weigh, hpc, Pc.holders, List.map_cons,
          List.sum_cons]
        omega
      · simp only [update, Worker.unsettled, Worker.weigh, hpc, Pc.unsettled, List.map_cons,
          List.sum_cons, Handler.unsettled]
        omega
      · simp only [update, Worker.work, Worker.weigh, hpc, Pc.work, Pc.idle, List.map_cons,
          List.sum_cons, Handler.work]
        omega
  | spawnErr x => exact rank_release hg.1 false rfl rfl (by simp [Pc.work, Pc.idle])
  | drop pc again spurious =>
      cases spurious with
      | true => cases hown
      | false => exact rank_drop hg
  | abort =>
      rcases hg.2 with hpc | hpc
      · exact rank_move hpc (Nat.zero_le _) (Nat.zero_le _) (by simp [Pc.work, Pc.idle])
      · exact rank_move hpc (Nat.zero_le _) (Nat.zero_le _) (by simp [Pc.work, Pc.idle])
  | abortReceiving => exact rank_release hg.2 false rfl rfl (by simp [Pc.work, Pc.idle])
  | handlerEnd i x => exact rank_handlerEnd hg
  | handlerDrop i pc spurious =>
      cases spurious with
      | true => cases hown
      | false => exact rank_handlerDrop hg

/-! ## The server -/

/-- The steps that a closed server has ahead of it. -/
def closingRank (n : ℕ) (s : Lts.Fleet Flags (Worker α ρ β)) : ℕ :=
  ∑ w ∈ Finset.range n, (s.proc w).rank

theorem ranked_closing (runtime : Startup.Runtime) (L : NativeLoop α ρ β) (n : ℕ)
    (max : Option ℕ) :
    Lts.Ranked (closing runtime L n max) (fun s => s.env.serverActive = false)
      (closingRank n) where
  keeps := by
    rintro l s ⟨_, hown, _⟩ hclosed
    cases l with
    | env e => cases hown
    | proc w l => exact hclosed
  lowers := by
    rintro l s ⟨hg, hown, _⟩ hclosed
    cases l with
    | env e => cases hown
    | proc w l =>
        have hless := rank_step hg.2 hown hclosed
        have hsum := Lts.sum_update (g := s.proc) Worker.rank n (update L l s.env (s.proc w)) hg.1
        show ∑ u ∈ Finset.range n, (Function.update s.proc w
          (update L l s.env (s.proc w)) u).rank < ∑ u ∈ Finset.range n, (s.proc u).rank
        omega

/-- Every listener task has ended, and no handler runs. -/
def AtRest (n : ℕ) (s : Lts.Fleet Flags (Worker α ρ β)) : Prop :=
  ∀ w < n, (s.proc w).pc = .exited ∧ (s.proc w).handlers = []

section AtRest

variable {L : NativeLoop α ρ β} {n : ℕ} {max : Option ℕ} {s : Lts.Fleet Flags (Worker α ρ β)}

theorem maxOf_poll (limit : WorkerConcurrencyLimit) (spurious : Bool) (pc : PollPc) :
    Simulated.maxOf (limit.poll spurious pc).1 = Simulated.maxOf limit := by
  cases limit with
  | none => rfl
  | some c => exact congrArg some pollStep_max

/-- The maximum of a limit is for ever. -/
theorem reachable_maxOf (hs : (server L n max).Reachable s) (w : ℕ) :
    Simulated.maxOf (s.proc w).limit = Simulated.maxOf (.new max) := by
  refine Lts.Proc.invariant (P := proc L n max)
    (fun _ k => Simulated.maxOf k.limit = Simulated.maxOf (.new max)) rfl
    (fun _ _ _ _ h => h) ?_ hs w
  intro l f k hg h
  cases l with
  | load c site =>
      show Simulated.maxOf (k.load site c (f.get c)).limit = _
      rw [limit_load]
      exact h
  | poll pc spurious =>
      have hlimit : (k.polled (k.limit.poll spurious pc)).limit = (k.limit.poll spurious pc).1 := by
        rcases k.limit.poll spurious pc with ⟨limit, _ | next⟩ <;> rfl
      show Simulated.maxOf (k.polled (k.limit.poll spurious pc)).limit = _
      rw [hlimit, maxOf_poll]
      exact h
  | drop pc again spurious =>
      have hlimit : (k.dropped again (k.limit.drop spurious pc)).limit =
          (k.limit.drop spurious pc).1 := by
        rcases k.limit.drop spurious pc with ⟨limit, _ | next⟩ <;> rfl
      show Simulated.maxOf (k.dropped again (k.limit.drop spurious pc)).limit = _
      rw [hlimit, Simulated.maxOf_drop]
      exact h
  | handlerDrop i pc spurious =>
      show Simulated.maxOf (k.limit.drop spurious pc).1 = _
      rw [Simulated.maxOf_drop]
      exact h
  | start | startErr | recv origin a | recvErr | reject x | spawn x | spawnErr x | abort
  | abortReceiving | handlerEnd i x => exact h

/-- The limit of a worker counts the permits that are out. -/
theorem exact_of_limit (hs : (server L n max).Reachable s) {w : ℕ} {c : ConcurrencyState}
    (hc : (s.proc w).limit = some c) :
    Share.Exact c.max c ((s.proc w).pc.share + Handler.total (s.proc w).handlers) :=
  Simulated.exact_of_some (reachable_maxOf hs w) (fun _ hm => exact_of_maxOf hs hm w) hc

end AtRest

/-- The listener of worker `w` gets something, or an error. -/
def isReceive (w : ℕ) : Lts.FleetLbl FlagLbl (Lbl α ρ β) → Bool
  | .proc u (.recv _ _) | .proc u .recvErr => u == w
  | _ => false

/-- With async-std, while the threads of the workers run: a listener that waits in its receive
stays there, closed or not, until it receives something, and its permit stays out. -/
theorem receiving_asyncStd {L : NativeLoop α ρ β} {n : ℕ} {max : Option ℕ}
    {s s' : Lts.Fleet Flags (Worker α ρ β)} (hs : (server L n max).Reachable s) {w : ℕ}
    (hpc : (s.proc w).pc = .receiving) {tr : List (Lts.FleetLbl FlagLbl (Lbl α ρ β))}
    (hrun : ((server L n max).restrict fun l t =>
      Cancels .asyncStd l t ∧ isReceive w l = false).Run s tr s') :
    (s'.proc w).pc = .receiving ∧ ∀ c, (s'.proc w).limit = some c → 1 ≤ c.active := by
  have hpc' : (s'.proc w).pc = .receiving := by
    refine hrun.preserves (fun t => (t.proc w).pc = .receiving) hpc ?_
    rintro l t ⟨hg, hcancels, hl⟩ hpc
    cases l with
    | env e => exact hpc
    | proc u l =>
        by_cases hu : u = w
        · subst hu
          show (Function.update t.proc u (update L l t.env (t.proc u)) u).pc = .receiving
          rw [Function.update_self]
          have hguard : guard L n l t.env (t.proc u) := hg.2
          cases l with
          | recv origin a | recvErr => simp [isReceive] at hl
          | abort =>
              rcases hcancels with hruntime | hsubmitted
              · cases hruntime
              · cases hpc.symm.trans hsubmitted
          | abortReceiving => cases hcancels
          | start | startErr | load c site | poll pc spurious | drop pc again spurious =>
              cases hpc.symm.trans hguard
          | reject x | spawn x | spawnErr x => cases hpc.symm.trans hguard.1
          | handlerEnd i x | handlerDrop i pc spurious => exact hpc
        · show (Function.update t.proc u (update L l t.env (t.proc u)) w).pc = .receiving
          rw [Function.update_of_ne (Ne.symm hu)]
          exact hpc
  refine ⟨hpc', ?_⟩
  intro c hc
  have hs' : (server L n max).Reachable s' := hs.run hrun.of_restrict
  have hone : (s'.proc w).pc.share.live = 1 := by
    rw [hpc']
    rfl
  have hactive := (exact_of_limit hs' hc).active_eq
  rw [Share.live_add, hone] at hactive
  omega

end Native

end ReusePort
