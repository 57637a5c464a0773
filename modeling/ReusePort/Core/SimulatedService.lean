import ReusePort.Core.Delivery
import ReusePort.Core.Limit
import ReusePort.Core.Service

/-!
# ReusePort.Core.SimulatedService — the simulated servers implement the service

A simulated server passes an item through many hands: the receiving loop, the queue
of the worker, the dispatch loop, the handler. `slot` collects what all of them have
of one worker, and every atomic step of the server is answered by the service.

* `reachable_held` — what the receiving loop has in hand is what it received last;
* `answers_loopStep`, `answers_workerStep` — the answers;
* `simulated_refines` — every simulated server implements the service, through
  closes, failures and refusals.
-/

namespace ReusePort

/-- The worker of a route. -/
def Route.worker? : Route → Option ℕ
  | .worker w => some w
  | .skip => none
  | .stop => none

namespace Simulated

variable {α ρ β : Type}

/-! ## The service of a simulated server -/

/-- An item is refused if its worker has no permit left. -/
def spec (L : SimulatedLoop α ρ β) (n : ℕ) (max : Option ℕ) : Service.Spec α β where
  limit := maxOf (.new max)
  refuses := true
  route := fun a => (L.routeOf a n).worker?
  item := L.item

/-- What can be seen of a simulated server. -/
def event : Lbl α ρ β → Option (Service.Event α β)
  | .flags .runtimeDrop => some .closed
  | .flags .closeStore => some .closed
  | .loop (.recv _ a) => some (.arrived a)
  | .worker w (.spawn x) => some (.handled w x.work)
  | .worker w (.spawnErr _) => some (.failed w)
  | .worker w (.handlerEnd _ x) => some (.finished w x.work)
  | _ => none

/-- The arrival, as an item of worker `w`. -/
def toward (L : SimulatedLoop α ρ β) (n w : ℕ) (a : α) : List β :=
  if L.routeOf a n = .worker w then [L.item a] else []

theorem routed_spec (L : SimulatedLoop α ρ β) (n : ℕ) (max : Option ℕ) (w : ℕ) (a : α) :
    Service.routed (spec L n max) w [.arrived a] = toward L n w a := by
  rw [Service.routed_arrived, toward]
  cases hroute : L.routeOf a n <;> simp [spec, hroute, Route.worker?]

/-- What the receiving loop has for worker `w`. -/
def LoopPc.carried (L : SimulatedLoop α ρ β) (n w : ℕ) : LoopPc (Received α ρ) β → List β
  | .check _ (.item x) => toward L n w x.arrival
  | .routing x => toward L n w x.arrival
  | .trying _ x _ => toward L n w x.arrival
  | .sending v item => if v = w then [item.work] else []
  | _ => []

/-- What there is of worker `w`. -/
def slot (L : SimulatedLoop α ρ β) (n : ℕ) (f : Flags) (loop : LoopPc (Received α ρ) β) (w : ℕ)
    (k : Worker β) : Service.Slot β where
  waiting := (k.pc.inHand ++ k.queue).map Item.work ++ loop.carried L n w
  running := Handler.items k.handlers
  ending := Handler.endings k.handlers
  up := f.isActive ∧ Serving loop k

def view (L : SimulatedLoop α ρ β) (n : ℕ) (s : St α ρ β) : Service.View β :=
  fun w => slot L n s.flags s.pc w (s.worker w)

theorem view_setWorker (L : SimulatedLoop α ρ β) (n : ℕ) (s : St α ρ β) (w : ℕ) (k : Worker β) :
    view L n (s.setWorker w k) = Function.update (view L n s) w (slot L n s.flags s.pc w k) := by
  funext u
  exact Function.apply_update (fun u => slot L n s.flags s.pc u) s.worker w k u

/-! ## What the receiving loop has in hand -/

/-- The item in hand is the last one received, and is on its way to its own worker. -/
structure Held (L : SimulatedLoop α ρ β) (n : ℕ) (s : St α ρ β) : Prop where
  length_buffer : s.buffer.length = bufferLen
  fresh : ∀ x ∈ s.pc.inHand, L.Fresh s.buffer x
  trying : ∀ w x pc, s.pc = .trying w x pc → L.routeOf x.arrival n = .worker w

section Held

variable {L : SimulatedLoop α ρ β} {n : ℕ} {s s' : St α ρ β}

theorem Held.of_empty (hbuffer : s'.buffer.length = bufferLen) (hhand : s'.pc.inHand = []) :
    Held L n s' where
  length_buffer := hbuffer
  fresh := by
    intro x hx
    rw [hhand] at hx
    cases hx
  trying := by
    intro w x pc hpc
    rw [hpc] at hhand
    cases hhand

theorem held_load {c : Check} {site : Site (Received α ρ)} (hpc : s.pc = .check c site)
    (h : Held L n s) (b : Bool) : Held L n (s.load site c b) := by
  cases b with
  | false => exact .of_empty h.length_buffer rfl
  | true =>
      cases site with
      | head => cases c <;> exact .of_empty h.length_buffer rfl
      | error =>
          cases c
          · exact .of_empty h.length_buffer rfl
          · exact .of_empty length_newBuffer rfl
      | item x =>
          have hfresh : L.Fresh s.buffer x := h.fresh x (by simp [hpc, LoopPc.inHand])
          cases c <;> refine ⟨h.length_buffer, ?_, by rintro _ _ _ ⟨⟩⟩ <;> intro y hy <;>
            cases List.mem_singleton.mp hy <;> exact hfresh

theorem held_loopStep {l : LoopLbl α ρ β} (hg : loopGuard L l s) (h : Held L n s) :
    Held L n (loopUpdate L n l s) := by
  cases l with
  | start | startErr | send w item | sendErr w item | abort | abortSending w item =>
      exact .of_empty h.length_buffer rfl
  | load c site => exact held_load hg h _
  | recv origin a =>
      refine ⟨(L.length_receive s.buffer a).trans h.length_buffer, ?_, by rintro _ _ _ ⟨⟩⟩
      intro x hx
      cases List.mem_singleton.mp hx
      exact ⟨s.buffer, h.length_buffer, rfl, rfl⟩
  | recvErr =>
      refine .of_empty h.length_buffer ?_
      simp only [loopUpdate]
      split <;> rfl
  | route x =>
      have hfresh : L.Fresh s.buffer x :=
        h.fresh x (by simp [show s.pc = .routing x from hg, LoopPc.inHand])
      have hroute := route_of_fresh hfresh n
      simp only [loopUpdate]
      cases hr : L.route s.buffer x.recv n with
      | skip | stop => exact .of_empty h.length_buffer rfl
      | worker w =>
          simp only [St.routed]
          split
          · refine ⟨h.length_buffer, ?_, ?_⟩
            · intro y hy
              cases List.mem_singleton.mp hy
              exact hfresh
            · intro v y pc hpc
              cases hpc
              rw [← hroute, hr]
          · exact .of_empty h.length_buffer rfl
  | tryAcquire w x pc spurious =>
      have hpc : s.pc = .trying w x pc := hg
      simp only [loopUpdate]
      cases ((s.worker w).limit.tryAcquire spurious pc).2 with
      | more pc' =>
          refine ⟨h.length_buffer, ?_, ?_⟩
          · intro y hy
            refine h.fresh y ?_
            rw [hpc]
            exact hy
          · intro v y p hp
            cases hp
            exact h.trying w x pc hpc
      | full active => exact .of_empty h.length_buffer rfl
      | got => exact .of_empty h.length_buffer rfl
  | drop w pc spurious =>
      simp only [loopUpdate]
      cases ((s.worker w).limit.drop spurious pc).2 <;> exact .of_empty h.length_buffer rfl

theorem reachable_held {max : Option ℕ} (hs : (server L n max).Reachable s) : Held L n s := by
  refine (server L n max).invariant (Held L n) (.of_empty length_newBuffer rfl) ?_ s hs
  intro l s hg h
  cases l with
  | flags l => exact ⟨h.length_buffer, h.fresh, h.trying⟩
  | loop l => exact held_loopStep hg h
  | worker w l => exact ⟨h.length_buffer, h.fresh, h.trying⟩

end Held

/-! ## The limits -/

/-- No step changes the maximum of a limit. -/
theorem reachable_maxOf {L : SimulatedLoop α ρ β} {n : ℕ} {max : Option ℕ} {s : St α ρ β}
    (hs : (server L n max).Reachable s) : ∀ w, maxOf (s.worker w).limit = maxOf (.new max) := by
  refine (server L n max).invariant (fun s => ∀ w, maxOf (s.worker w).limit = maxOf (.new max))
    (fun _ => rfl) ?_ s hs
  intro l s hg h
  have hset : ∀ (w : ℕ) (k : Worker β), maxOf k.limit = maxOf (s.worker w).limit →
      ∀ u, maxOf ((s.setWorker w k).worker u).limit = maxOf (.new max) := by
    intro w k hk
    exact (Function.forall_update_iff s.worker fun _ k => maxOf k.limit = maxOf (.new max)).mpr
      ⟨hk.trans (h w), fun u _ => h u⟩
  cases l with
  | flags l => exact h
  | loop l =>
      cases l with
      | load c site =>
          intro u
          have hworker := congrFun (worker_load s site c (s.flags.get c)) u
          exact (congrArg (fun k => maxOf k.limit) hworker).trans (h u)
      | route x =>
          intro u
          have hworker := (moves_routed (n := n) (w := u) (c := ⟨0, 0, false, false⟩) hg
            (L.route s.buffer x.recv n)).1
          exact (congrArg (fun k => maxOf k.limit) hworker).trans (h u)
      | tryAcquire w x pc spurious =>
          simp only [server, update, loopUpdate, worker_tried]
          exact hset w _ (maxOf_tryAcquire _ _ _)
      | drop w pc spurious =>
          simp only [server, update, loopUpdate, worker_dropped]
          exact hset w _ (maxOf_drop _ _ _)
      | send w item => exact hset w _ rfl
      | start | startErr | recv origin a | recvErr | sendErr w item | abort
      | abortSending w item => exact h
  | worker w l =>
      refine hset w _ ?_
      cases l with
      | drop pc spurious =>
          have hmax := maxOf_drop (s.worker w).limit spurious pc
          simp only [workerUpdate]
          rcases hdrop : (s.worker w).limit.drop spurious pc with ⟨limit, _ | pc'⟩ <;>
            rw [hdrop] at hmax <;> exact hmax
      | handlerDrop i pc spurious => exact maxOf_drop _ _ _
      | start | load | recv x | closed | check x | spawn x | spawnErr x | abort | drain x
      | handlerEnd i x => rfl

/-- A limit that is enforced has a permit. -/
theorem pos_of_maxOf_new {max : Option ℕ} {m : ℕ} (hm : maxOf (.new max) = some m) :
    max = some m ∧ 1 ≤ m := by
  have hmax := max_of_maxOf_new hm
  refine ⟨hmax, ?_⟩
  by_contra hzero
  have hnone : maxOf (.new max) = none := by
    simp [maxOf, WorkerConcurrencyLimit.new, hmax, show m = 0 by omega]
  rw [hm] at hnone
  cases hnone

/-- A limit that is enforced is exact, on a server that uses it as the helper can be used. -/
theorem exact_of_pool {max : Option ℕ} {m : ℕ} (hm : maxOf (.new max) = some m)
    {limit : WorkerConcurrencyLimit} (waiter : Option PollPc) {share : Share}
    (hpool : ∀ k, max = some k → 1 ≤ k → ∃ c, limit = some c ∧
      (Pool.sys k).Reachable (Pool.ofShare c waiter share)) :
    ∃ c, limit = some c ∧ Share.Exact m c share := by
  rcases pos_of_maxOf_new hm with ⟨hmax, hpos⟩
  rcases hpool m hmax hpos with ⟨c, hlimit, hreach⟩
  exact ⟨c, hlimit, Share.exact_of_reachable hreach⟩

/-- Somebody besides the handlers has a permit, so there is one less for them. -/
theorem room_of_exact {m k : ℕ} {c : ConcurrencyState} {share : Share}
    {handlers : List (Handler β)} (h : share.Exact m c)
    (hlive : share.live = k + (Handler.total handlers).live) (hk : 0 < k) :
    (Handler.items handlers).card + Handler.endings handlers < m := by
  have hactive := h.active_eq
  have hle := h.active_le
  rw [hlive, Handler.live_total] at hactive
  omega

theorem exact_of_maxOf {L : SimulatedLoop α ρ β} {n : ℕ} {max : Option ℕ} {s : St α ρ β}
    (hs : (server L n max).Reachable s) {m : ℕ} (hm : maxOf (.new max) = some m) (w : ℕ) :
    ∃ c, (s.worker w).limit = some c ∧
      Share.Exact m c (s.pc.share w + (s.worker w).share) := by
  refine exact_of_pool hm none ?_
  rintro k rfl hpos
  exact reachable_pool hpos hs w

/-- A worker keeps the maximum of its limit, so the limit it has now counts the permits that are
out. -/
theorem exact_of_some {max : Option ℕ} {limit : WorkerConcurrencyLimit} {share : Share}
    (hmax : maxOf limit = maxOf (.new max))
    (hexact : ∀ m, maxOf (.new max) = some m → ∃ c, limit = some c ∧ Share.Exact m c share)
    {c : ConcurrencyState} (hc : limit = some c) : Share.Exact c.max c share := by
  subst hc
  rcases hexact c.max hmax.symm with ⟨c', hc', hc⟩
  obtain rfl := Option.some.inj hc'
  exact hc

theorem exact_of_limit {L : SimulatedLoop α ρ β} {n : ℕ} {max : Option ℕ} {s : St α ρ β}
    (hs : (server L n max).Reachable s) {w : ℕ} {c : ConcurrencyState}
    (hc : (s.worker w).limit = some c) :
    Share.Exact c.max c (s.pc.share w + (s.worker w).share) :=
  exact_of_some (reachable_maxOf hs w) (fun _ hm => exact_of_maxOf hs hm w) hc

/-- The dispatch loop has a permit for the item in its hand. -/
theorem live_dispatch {pc : DispatchPc β} (hdrop : ∀ p, pc ≠ .dropping p) :
    pc.share.live = pc.inHand.length := by
  cases pc with
  | dropping p => exact absurd rfl (hdrop p)
  | submitted | head | receiving | check x | spawning x | exited => rfl

/-- A refusal has seen all permits of the worker out. -/
theorem full_of_tryAcquire {limit : WorkerConcurrencyLimit} {spurious : Bool} {pc : TryPc}
    {active : ℕ} (h : (limit.tryAcquire spurious pc).2 = .full active) :
    ∃ c, limit = some c ∧ c.max ≤ c.active := by
  cases limit with
  | none => cases h
  | some c =>
      refine ⟨c, rfl, ?_⟩
      cases pc with
      | load =>
          simp only [WorkerConcurrencyLimit.tryAcquire, tryStep] at h
          split at h
          · assumption
          · cases h
      | cas v =>
          simp only [WorkerConcurrencyLimit.tryAcquire, tryStep] at h
          split at h <;> cases h

section Answers

variable {L : SimulatedLoop α ρ β} {n : ℕ} {max : Option ℕ} {s : St α ρ β} {t : Service.St β}

/-- Where the limit of a worker is found full, its items and handlers make up the limit. -/
theorem refused (hs : (server L n max).Reachable s) {w : ℕ} {x : Received α ρ} {pc : TryPc}
    (hpc : s.pc = .trying w x pc) {spurious : Bool} {active : ℕ}
    (hfull : ((s.worker w).limit.tryAcquire spurious pc).2 = .full active)
    (hserving : Serving s.pc (s.worker w)) :
    ∃ m, (spec L n max).limit = some m ∧
      m ≤ ((s.worker w).pc.inHand ++ (s.worker w).queue).length +
        ((Handler.items (s.worker w).handlers).card + Handler.endings (s.worker w).handlers) := by
  rcases full_of_tryAcquire hfull with ⟨c, hc, hle⟩
  have hm : maxOf (.new max) = some c.max := by
    rw [← reachable_maxOf hs w, hc]
    rfl
  refine ⟨c.max, hm, ?_⟩
  have hactive := (exact_of_limit hs hc).active_eq
  -- the call itself has no permit yet
  have hloop : (s.pc.share w).live = 0 := by
    rw [hpc, LoopPc.share, if_pos rfl]
    rfl
  rw [Share.live_add, hloop, Worker.share, Share.live_add, Share.live_add, live_queueShare,
    live_dispatch hserving.1, Handler.live_total] at hactive
  rw [List.length_append]
  omega

/-- The item that is handed to a handler has a permit of its own. -/
theorem room (hs : (server L n max).Reachable s) {w : ℕ} {x : Item β}
    (hpc : (s.worker w).pc = .spawning x) (m : ℕ) (hm : (spec L n max).limit = some m) :
    (Handler.items (s.worker w).handlers).card + Handler.endings (s.worker w).handlers < m := by
  rcases exact_of_maxOf hs hm w with ⟨c, -, hexact⟩
  have hone : (s.worker w).pc.share.live = 1 := by
    rw [hpc]
    rfl
  refine room_of_exact (k := (s.pc.share w).live + 1 + (queueShare (s.worker w).queue).live)
    hexact ?_ (by omega)
  rw [Share.live_add, Worker.share, Share.live_add, Share.live_add, hone]
  omega

/-! ## The receiving loop -/

theorem ne_exited_of_loopGuard {l : LoopLbl α ρ β} (hg : loopGuard L l s) : s.pc ≠ .exited := by
  intro hpc
  cases l with
  | abort =>
      rcases hg.2 with h | h
      · rw [hpc] at h
        cases h
      · rw [hpc] at h
        cases h
  | recv origin a | send w item | sendErr w item =>
      have h := hg.1
      rw [hpc] at h
      cases h
  | abortSending w item =>
      have h := hg.2
      rw [hpc] at h
      cases h
  | start | startErr | load c site | recvErr | route x | tryAcquire w x pc spurious
  | drop w pc spurious =>
      have h := hg
      rw [loopGuard, hpc] at h
      cases h

/-- The receiving loop keeps away from the handlers and from the dispatch loops. -/
theorem quiet_loopStep {l : LoopLbl α ρ β} (hg : loopGuard L l s) (u : ℕ) :
    (view L n s u).Quiet (view L n (loopUpdate L n l s) u) := by
  rcases worker_loopUpdate L n l s u with ⟨limit, queue, hworker⟩
  have hne := ne_exited_of_loopGuard hg
  refine ⟨?_, ?_, ?_, ?_⟩
  · simp only [view, slot, hworker]
  · simp only [view, slot, hworker]
    exact le_refl _
  · intro _
    simp only [view, slot, hworker]
  · rintro ⟨hactive, hserving⟩
    refine ⟨(flags_loopUpdate L n l s).symm ▸ hactive, ?_⟩
    have hexit : (s.worker u).pc ≠ .exited := fun hpc => hne (hserving.2 hpc).1
    rw [hworker]
    exact serving_of_ne hserving.1 hexit

/-- Only a send changes a queue. -/
theorem queue_loopUpdate {l : LoopLbl α ρ β} (hl : ∀ w item, l ≠ .send w item) (u : ℕ) :
    ((loopUpdate L n l s).worker u).queue = (s.worker u).queue := by
  have hset : ∀ (w : ℕ) (limit : WorkerConcurrencyLimit),
      ((s.setWorker w { s.worker w with limit := limit }).worker u).queue =
        (s.worker u).queue := by
    intro w limit
    by_cases hu : u = w
    · subst hu
      simp [St.setWorker]
    · simp [St.setWorker, Function.update_of_ne hu]
  cases l with
  | send w item => exact absurd rfl (hl w item)
  | load c site => exact congrArg Worker.queue (congrFun (worker_load s site c _) u)
  | route x =>
      simp only [loopUpdate]
      cases L.route s.buffer x.recv n with
      | skip | stop => rfl
      | worker v =>
          simp only [St.routed]
          split <;> rfl
  | tryAcquire w x pc spurious =>
      simp only [loopUpdate, worker_tried]
      exact hset w _
  | drop w pc spurious =>
      simp only [loopUpdate, worker_dropped]
      exact hset w _
  | start | startErr | recv origin a | recvErr | sendErr w item | abort | abortSending w item =>
      rfl

/-- What waits for a worker after a step of the loop is what waited on the worker, and what
the loop now carries. -/
theorem waiting_loopStep {l : LoopLbl α ρ β} (hl : ∀ w item, l ≠ .send w item) (u : ℕ) :
    (view L n (loopUpdate L n l s) u).waiting =
      ((s.worker u).pc.inHand ++ (s.worker u).queue).map Item.work ++
        (loopUpdate L n l s).pc.carried L n u := by
  have hqueue := queue_loopUpdate (L := L) (n := n) (s := s) hl u
  rcases worker_loopUpdate L n l s u with ⟨limit, queue, hworker⟩
  rw [hworker] at hqueue
  simp only [view, slot, hworker, hqueue]

/-- The loop carries what it carried before. -/
theorem answers_keep (h : Service.Represents (view L n s) t) {l : LoopLbl α ρ β}
    (hg : loopGuard L l s) (hl : ∀ w item, l ≠ .send w item)
    (hcarried : ∀ u, (loopUpdate L n l s).pc.carried L n u = s.pc.carried L n u) :
    Lts.Answers (Service.sys (spec L n max)) (fun l _ => l.event) []
      (Service.Represents (view L n (loopUpdate L n l s))) t := by
  refine h.stutter (quiet_loopStep hg) ?_
  intro u
  rw [waiting_loopStep hl, hcarried]
  rfl

/-- The loop loses the item that it carried for worker `w`. -/
theorem answers_lose (h : Service.Represents (view L n s) t) {l : LoopLbl α ρ β}
    (hg : loopGuard L l s) (hl : ∀ w item, l ≠ .send w item) {w : ℕ} {b : β}
    (hwas : ∀ u, s.pc.carried L n u = if u = w then [b] else [])
    (hnow : ∀ u, (loopUpdate L n l s).pc.carried L n u = [])
    (hwhy : (view L n s w).up → ∃ m, (spec L n max).limit = some m ∧
      m ≤ ((s.worker w).pc.inHand ++ (s.worker w).queue).length +
        ((Handler.items (s.worker w).handlers).card + Handler.endings (s.worker w).handlers)) :
    Lts.Answers (Service.sys (spec L n max)) (fun l _ => l.event) []
      (Service.Represents (view L n (loopUpdate L n l s))) t := by
  refine h.shed (((s.worker w).pc.inHand ++ (s.worker w).queue).map Item.work) [] (w := w) (b := b)
    (quiet_loopStep hg) ?_ ?_ ?_ ?_
  · simp only [view, slot, hwas, if_true]
  · rw [waiting_loopStep hl, hnow]
  · intro u hu
    rw [waiting_loopStep hl, hnow]
    simp only [view, slot, hwas, if_neg hu]
  · intro hup
    rcases hwhy hup with ⟨m, hm, hle⟩
    refine ⟨rfl, m, hm, ?_⟩
    simpa [view, slot] using hle

/-- The loop gives up an arrival that it has in hand. -/
theorem answers_giveUp (h : Service.Represents (view L n s) t) {l : LoopLbl α ρ β}
    (hg : loopGuard L l s) (hl : ∀ w item, l ≠ .send w item) (a : α)
    (hwas : ∀ u, s.pc.carried L n u = toward L n u a)
    (hnow : ∀ u, (loopUpdate L n l s).pc.carried L n u = [])
    (hwhy : ∀ w, L.routeOf a n = .worker w → (view L n s w).up →
      ∃ m, (spec L n max).limit = some m ∧
        m ≤ ((s.worker w).pc.inHand ++ (s.worker w).queue).length +
          ((Handler.items (s.worker w).handlers).card + Handler.endings (s.worker w).handlers)) :
    Lts.Answers (Service.sys (spec L n max)) (fun l _ => l.event) []
      (Service.Represents (view L n (loopUpdate L n l s))) t := by
  cases hroute : L.routeOf a n with
  | skip | stop =>
      -- it had no worker
      refine answers_keep h hg hl ?_
      intro u
      rw [hnow, hwas, toward, hroute, if_neg (by rintro ⟨⟩)]
  | worker w =>
      refine answers_lose h hg hl (w := w) (b := L.item a) ?_ hnow (hwhy w hroute)
      intro u
      rw [hwas, toward, hroute]
      by_cases hu : u = w
      · rw [hu]
        simp
      · rw [if_neg hu, if_neg]
        rintro ⟨⟩
        exact hu rfl

theorem answers_load (h : Service.Represents (view L n s) t) {c : Check}
    {site : Site (Received α ρ)} (hg : s.pc = .check c site) :
    Lts.Answers (Service.sys (spec L n max)) (fun l _ => l.event) []
      (Service.Represents (view L n (loopUpdate L n (.load c site) s))) t := by
  have hl : ∀ w item, (.load c site : LoopLbl α ρ β) ≠ .send w item := by rintro _ _ ⟨⟩
  cases hb : s.flags.get c with
  | true =>
      refine answers_keep h hg hl ?_
      intro u
      simp only [loopUpdate, hb, hg]
      cases c <;> cases site <;> rfl
  | false =>
      have hinactive : ¬ s.flags.isActive := by
        rintro ⟨hruntime, hserver⟩
        cases c
        · exact absurd (hb.symm.trans hruntime) (by decide)
        · exact absurd (hb.symm.trans hserver) (by decide)
      have hnow : ∀ u, (loopUpdate L n (.load c site) s).pc.carried L n u = [] := by
        intro u
        simp only [loopUpdate, hb]
        rfl
      cases site with
      | head | error =>
          refine answers_keep h hg hl ?_
          intro u
          rw [hnow, hg]
          rfl
      | item x =>
          refine answers_giveUp h hg hl x.arrival ?_ hnow ?_
          · intro u
            rw [hg]
            rfl
          · intro w _ hup
            exact absurd hup.1 hinactive

theorem answers_tryAcquire (hs : (server L n max).Reachable s)
    (h : Service.Represents (view L n s) t) {w : ℕ} {x : Received α ρ} {pc : TryPc}
    (spurious : Bool) (hpc : s.pc = .trying w x pc) :
    Lts.Answers (Service.sys (spec L n max)) (fun l _ => l.event) []
      (Service.Represents (view L n (loopUpdate L n (.tryAcquire w x pc spurious) s))) t := by
  have hl : ∀ v item, (.tryAcquire w x pc spurious : LoopLbl α ρ β) ≠ .send v item := by
    rintro _ _ ⟨⟩
  have hheld := reachable_held hs
  have hroute := hheld.trying w x pc hpc
  have hcarried : ∀ u, s.pc.carried L n u = toward L n u x.arrival := by
    intro u
    rw [hpc]
    rfl
  cases hnext : ((s.worker w).limit.tryAcquire spurious pc).2 with
  | more pc' =>
      refine answers_keep h hpc hl ?_
      intro u
      simp only [loopUpdate, hnext, hcarried]
      rfl
  | full active =>
      refine answers_giveUp h hpc hl x.arrival hcarried ?_ ?_
      · intro u
        simp only [loopUpdate, hnext]
        rfl
      · intro v hv hup
        rw [hroute] at hv
        cases hv
        exact refused hs hpc hnext hup.2
  | got =>
      -- the work item is built from what the receive left in the buffer
      have hfresh : L.Fresh s.buffer x := hheld.fresh x (by simp [hpc, LoopPc.inHand])
      refine answers_keep h hpc hl ?_
      intro u
      rw [hcarried]
      simp only [loopUpdate, hnext, St.tried, LoopPc.carried, toward, hroute, itemOf]
      by_cases hu : w = u
      · subst hu
        rw [if_pos rfl, if_pos rfl]
        exact congrArg (fun b => [b]) hfresh.work
      · rw [if_neg hu, if_neg]
        rintro ⟨⟩
        exact hu rfl

theorem answers_send (h : Service.Represents (view L n s) t) {w : ℕ} {item : Item β}
    (hg : loopGuard L (.send w item) s) :
    Lts.Answers (Service.sys (spec L n max)) (fun l _ => l.event) []
      (Service.Represents (view L n (loopUpdate L n (.send w item) s))) t := by
  refine h.stutter (quiet_loopStep hg) ?_
  intro u
  by_cases hu : u = w
  · subst hu
    simp [view, slot, loopUpdate, St.setWorker, hg.1, LoopPc.carried]
  · simp [view, slot, loopUpdate, St.setWorker, hg.1, LoopPc.carried, Function.update_of_ne hu,
      Ne.symm hu]

/-- An item that cannot be sent is lost: the worker is down. -/
theorem answers_unsent (h : Service.Represents (view L n s) t) {l : LoopLbl α ρ β}
    (hg : loopGuard L l s) (hl : ∀ w item, l ≠ .send w item) {w : ℕ} {item : Item β}
    (hpc : s.pc = .sending w item)
    (hnow : ∀ u, (loopUpdate L n l s).pc.carried L n u = []) (hdown : ¬ (view L n s w).up) :
    Lts.Answers (Service.sys (spec L n max)) (fun l _ => l.event) []
      (Service.Represents (view L n (loopUpdate L n l s))) t := by
  refine answers_lose h hg hl (w := w) (b := item.work) ?_ hnow (fun hup => absurd hup hdown)
  intro u
  rw [hpc, LoopPc.carried]
  by_cases hu : u = w
  · rw [if_pos hu, if_pos hu.symm]
  · rw [if_neg hu, if_neg (Ne.symm hu)]

/-- A step between two places where the loop carries nothing. -/
theorem answers_idle (h : Service.Represents (view L n s) t) {l : LoopLbl α ρ β}
    (hg : loopGuard L l s) (hl : ∀ w item, l ≠ .send w item)
    (hwas : ∀ u, s.pc.carried L n u = [])
    (hnow : ∀ u, (loopUpdate L n l s).pc.carried L n u = []) :
    Lts.Answers (Service.sys (spec L n max)) (fun l _ => l.event) []
      (Service.Represents (view L n (loopUpdate L n l s))) t :=
  answers_keep h hg hl fun u => (hnow u).trans (hwas u).symm

theorem answers_route (hs : (server L n max).Reachable s)
    (h : Service.Represents (view L n s) t) {x : Received α ρ} (hpc : s.pc = .routing x) :
    Lts.Answers (Service.sys (spec L n max)) (fun l _ => l.event) []
      (Service.Represents (view L n (loopUpdate L n (.route x) s))) t := by
  have hfresh : L.Fresh s.buffer x :=
    (reachable_held hs).fresh x (by simp [hpc, LoopPc.inHand])
  have hroute := route_of_fresh hfresh n
  refine answers_keep h hpc (by rintro _ _ ⟨⟩) ?_
  intro u
  simp only [loopUpdate, hroute, hpc]
  cases hr : L.routeOf x.arrival n with
  | skip | stop =>
      simp only [LoopPc.carried, toward, hr]
      rfl
  | worker w =>
      have hlt := L.routeOf_lt x.arrival n w hr
      simp only [St.routed, if_pos hlt]
      rfl

theorem answers_loopStep (hs : (server L n max).Reachable s)
    (h : Service.Represents (view L n s) t) {l : LoopLbl α ρ β} (hg : loopGuard L l s) :
    Lts.Answers (Service.sys (spec L n max)) (fun l _ => l.event)
      (event (.loop l : Lbl α ρ β)).toList
      (Service.Represents (view L n (loopUpdate L n l s))) t := by
  cases l with
  | start | startErr =>
      refine answers_idle h hg (by rintro _ _ ⟨⟩) ?_ (fun _ => rfl)
      intro u
      rw [show s.pc = .submitted from hg]
      rfl
  | load c site => exact answers_load h hg
  | recv origin a =>
      refine h.arrive a (quiet_loopStep hg) ?_
      intro u
      rw [waiting_loopStep (by rintro _ _ ⟨⟩), routed_spec]
      simp only [view, slot, hg.1, LoopPc.carried, loopUpdate, List.append_nil]
  | recvErr =>
      refine answers_idle h hg (by rintro _ _ ⟨⟩) ?_ ?_
      · intro u
        rw [show s.pc = .receiving from hg]
        rfl
      · intro u
        simp only [loopUpdate]
        split <;> rfl
  | route x => exact answers_route hs h hg
  | tryAcquire w x pc spurious => exact answers_tryAcquire hs h spurious hg
  | send w item => exact answers_send h hg
  | sendErr w item =>
      refine answers_unsent h hg (by rintro _ _ ⟨⟩) hg.1 (fun _ => rfl) ?_
      -- a dispatch loop that is at its work does not end before the receiving loop
      rintro ⟨-, hserving⟩
      have hexit := (hserving.2 hg.2).1
      rw [hg.1] at hexit
      cases hexit
  | drop w pc spurious =>
      refine answers_idle h hg (by rintro _ _ ⟨⟩) ?_ ?_
      · intro u
        rw [show s.pc = .dropping w pc from hg]
        rfl
      · intro u
        simp only [loopUpdate]
        cases ((s.worker w).limit.drop spurious pc).2 <;> rfl
  | abort =>
      refine answers_idle h hg (by rintro _ _ ⟨⟩) ?_ (fun _ => rfl)
      intro u
      rcases hg.2 with hpc | hpc
      · rw [hpc]
        rfl
      · rw [hpc]
        rfl
  | abortSending w item =>
      exact answers_unsent h hg (by rintro _ _ ⟨⟩) hg.2 (fun _ => rfl) (fun hup => hg.1 hup.1)

/-! ## The workers -/

/-- A step of worker `w` that neither touches its handlers nor loses an item. -/
theorem answers_workerKeep (h : Service.Represents (view L n s) t) {w : ℕ} {l : WorkerLbl β}
    (hg : workerGuard s.flags s.pc l (s.worker w)) (hspawn : ∀ x, l ≠ .spawnErr x)
    (hitems : (workerUpdate s.flags l (s.worker w)).pc.inHand ++
      (workerUpdate s.flags l (s.worker w)).queue = (s.worker w).pc.inHand ++ (s.worker w).queue)
    (hhandlers : (workerUpdate s.flags l (s.worker w)).handlers = (s.worker w).handlers) :
    Lts.Answers (Service.sys (spec L n max)) (fun l _ => l.event) []
      (Service.Represents (Function.update (view L n s) w
        (slot L n s.flags s.pc w (workerUpdate s.flags l (s.worker w))))) t := by
  refine h.stutter_at ⟨?_, ?_, ?_, ?_⟩ ?_
  · simp only [view, slot, hhandlers]
  · simp only [view, slot, hhandlers]
    exact le_refl _
  · intro _
    simp only [view, slot, hhandlers]
  · rintro ⟨hactive, hserving⟩
    exact ⟨hactive, serving_workerStep hactive hg hspawn hserving⟩
  · simp only [view, slot, hitems]

/-- The dispatch loop drops the item in its hand. -/
theorem waiting_cons {w : ℕ} {x : Item β} (hhand : (s.worker w).pc.inHand = [x]) :
    (view L n s w).waiting =
      x.work :: ((s.worker w).queue.map Item.work ++ s.pc.carried L n w) := by
  simp [view, slot, hhand]

theorem answers_check (h : Service.Represents (view L n s) t) {w : ℕ} {x : Item β}
    (hg : (s.worker w).pc = .check x) :
    Lts.Answers (Service.sys (spec L n max)) (fun l _ => l.event) []
      (Service.Represents (Function.update (view L n s) w
        (slot L n s.flags s.pc w (workerUpdate s.flags (.check x) (s.worker w))))) t := by
  cases hactive : s.flags.serverActive with
  | true =>
      refine answers_workerKeep h hg (by rintro _ ⟨⟩) ?_ rfl
      simp [workerUpdate, hactive, hg, DispatchPc.inHand]
  | false =>
      have hdown : ¬ (view L n s w).up := by
        rintro ⟨⟨-, hserver⟩, -⟩
        exact absurd (hactive.symm.trans hserver) (by decide)
      refine h.shed_at [] ((s.worker w).queue.map Item.work ++ s.pc.carried L n w) (b := x.work)
        ⟨rfl, le_refl _, fun hup => absurd hup hdown, fun hup => absurd hup hdown⟩ ?_ ?_ hdown
      · exact waiting_cons (by rw [hg]; rfl)
      · simp [slot, workerUpdate, hactive, DispatchPc.inHand]

theorem answers_spawn (hs : (server L n max).Reachable s) (h : Service.Represents (view L n s) t)
    {w : ℕ} {x : Item β} (hg : (s.worker w).pc = .spawning x) :
    Lts.Answers (Service.sys (spec L n max)) (fun l _ => l.event) [.handled w x.work]
      (Service.Represents (Function.update (view L n s) w
        (slot L n s.flags s.pc w (workerUpdate s.flags (.spawn x) (s.worker w))))) t := by
  refine h.handle ?_ ?_ ?_ ?_ (room hs hg)
  · rw [waiting_cons (x := x) (by rw [hg]; rfl)]
    simp [slot, workerUpdate, DispatchPc.inHand]
  · exact Handler.items_cons (.running x) (s.worker w).handlers
  · exact (Handler.endings_cons (.running x) (s.worker w).handlers).trans (zero_add _)
  · rintro ⟨hactive, -⟩
    exact ⟨hactive, serving_of_ne (by rintro _ ⟨⟩) (by rintro ⟨⟩)⟩

theorem answers_spawnErr (h : Service.Represents (view L n s) t) {w : ℕ} {x : Item β}
    (hg : (s.worker w).pc = .spawning x) :
    Lts.Answers (Service.sys (spec L n max)) (fun l _ => l.event) [.failed w]
      (Service.Represents (Function.update (view L n s) w
        (slot L n s.flags s.pc w (workerUpdate s.flags (.spawnErr x) (s.worker w))))) t := by
  refine h.fail_shed [] [x.work] ((s.worker w).queue.map Item.work ++ s.pc.carried L n w) rfl
    (le_refl _) ?_ ?_
  · exact waiting_cons (by rw [hg]; rfl)
  · simp [slot, workerUpdate, DispatchPc.inHand]

/-- What is still queued when the dispatch loop has ended is lost. -/
theorem answers_drain (h : Service.Represents (view L n s) t) {w : ℕ} {x : Item β}
    (hg : workerGuard s.flags s.pc (.drain x) (s.worker w)) :
    Lts.Answers (Service.sys (spec L n max)) (fun l _ => l.event) []
      (Service.Represents (Function.update (view L n s) w
        (slot L n s.flags s.pc w (workerUpdate s.flags (.drain x) (s.worker w))))) t := by
  have hqueue : (s.worker w).queue = x :: (s.worker w).queue.tail :=
    List.eq_cons_of_mem_head? hg.2
  have hdown : ¬ (view L n s w).up := by
    rintro ⟨-, hserving⟩
    exact hserving.no_drain hg x rfl
  refine h.shed_at [] ((s.worker w).queue.tail.map Item.work ++ s.pc.carried L n w) (b := x.work)
    ⟨?_, ?_, fun hup => absurd hup hdown, fun hup => absurd hup hdown⟩ ?_ ?_ hdown
  · exact (Handler.items_cons (.dropping .load) (s.worker w).handlers).trans (zero_add _)
  · exact (Nat.le_add_left _ _).trans
      (Handler.endings_cons (.dropping .load) (s.worker w).handlers).ge
  · simp only [view, slot, hg.1, DispatchPc.inHand, List.nil_append]
    rw [hqueue]
    rfl
  · simp [slot, workerUpdate, hg.1, DispatchPc.inHand]

theorem answers_handlerEnd (h : Service.Represents (view L n s) t) {w i : ℕ} {x : Item β}
    (hg : (s.worker w).handlers[i]? = some (.running x)) :
    Lts.Answers (Service.sys (spec L n max)) (fun l _ => l.event) [.finished w x.work]
      (Service.Represents (Function.update (view L n s) w
        (slot L n s.flags s.pc w (workerUpdate s.flags (.handlerEnd i x) (s.worker w))))) t := by
  rcases Handler.set_end hg with ⟨hitems, hendings⟩
  exact h.finish rfl hitems hendings id

theorem answers_handlerDrop (h : Service.Represents (view L n s) t) {w i : ℕ} {pc : DropPc}
    (spurious : Bool) (hg : (s.worker w).handlers[i]? = some (.dropping pc)) :
    Lts.Answers (Service.sys (spec L n max)) (fun l _ => l.event) []
      (Service.Represents (Function.update (view L n s) w (slot L n s.flags s.pc w
        (workerUpdate s.flags (.handlerDrop i pc spurious) (s.worker w))))) t := by
  rcases Handler.set_drop hg (s.worker w).limit spurious with ⟨hitems, hle, hle'⟩
  exact h.release rfl hitems hle hle' id

theorem answers_workerStep (hs : (server L n max).Reachable s)
    (h : Service.Represents (view L n s) t) {w : ℕ} {l : WorkerLbl β}
    (hg : workerGuard s.flags s.pc l (s.worker w)) :
    Lts.Answers (Service.sys (spec L n max)) (fun l _ => l.event)
      (event (.worker w l : Lbl α ρ β)).toList
      (Service.Represents (view L n (s.setWorker w (workerUpdate s.flags l (s.worker w))))) t := by
  rw [view_setWorker]
  cases l with
  | start =>
      refine answers_workerKeep h hg (by rintro _ ⟨⟩) ?_ rfl
      simp [workerUpdate, show (s.worker w).pc = .submitted from hg, DispatchPc.inHand]
  | load =>
      refine answers_workerKeep h hg (by rintro _ ⟨⟩) ?_ rfl
      cases hf : s.flags.serverActive <;>
        simp [workerUpdate, hf, show (s.worker w).pc = .head from hg, DispatchPc.inHand]
  | recv x =>
      refine answers_workerKeep h hg (by rintro _ ⟨⟩) ?_ rfl
      rw [hg.1]
      exact (List.eq_cons_of_mem_head? hg.2).symm
  | closed =>
      refine answers_workerKeep h hg (by rintro _ ⟨⟩) ?_ rfl
      simp [workerUpdate, hg.1, DispatchPc.inHand]
  | check x => exact answers_check h hg
  | spawn x => exact answers_spawn hs h hg
  | spawnErr x => exact answers_spawnErr h hg
  | drop pc spurious =>
      refine answers_workerKeep h hg (by rintro _ ⟨⟩) ?_ ?_
      · simp only [workerUpdate, show (s.worker w).pc = .dropping pc from hg]
        rcases (s.worker w).limit.drop spurious pc with ⟨limit, _ | pc'⟩ <;> rfl
      · simp only [workerUpdate]
        rcases (s.worker w).limit.drop spurious pc with ⟨limit, _ | pc'⟩ <;> rfl
  | abort =>
      refine answers_workerKeep h hg (by rintro _ ⟨⟩) ?_ rfl
      rcases hg.2 with hpc | hpc <;> simp [workerUpdate, hpc, DispatchPc.inHand]
  | drain x => exact answers_drain h hg
  | handlerEnd i x => exact answers_handlerEnd h hg
  | handlerDrop i pc spurious => exact answers_handlerDrop h spurious hg

/-! ## The server -/

theorem answers_flags (h : Service.Represents (view L n s) t) (l : FlagLbl) :
    Lts.Answers (Service.sys (spec L n max)) (fun l _ => l.event)
      (event (.flags l : Lbl α ρ β)).toList
      (Service.Represents (view L n { s with flags := l.update s.flags })) t := by
  cases l with
  | runtimeDrop | closeStore => exact h.close (fun _ => rfl) (fun _ => rfl) (fun _ => rfl)
  | closeWake =>
      refine h.stutter ?_ (fun _ => rfl)
      intro u
      exact ⟨rfl, le_refl _, fun _ => rfl, id⟩

end Answers

/-- The service follows the server step by step. -/
def simulation (L : SimulatedLoop α ρ β) (n : ℕ) (max : Option ℕ) :
    Lts.Simulation (server L n max) (fun l _ => event l) (Service.sys (spec L n max))
      (fun l _ => l.event) where
  rel := fun s => Service.Represents (view L n s)
  init := by
    intro w
    refine ⟨rfl, rfl, le_refl _, fun _ => rfl, ?_⟩
    intro _
    exact ⟨⟨rfl, rfl⟩, serving_of_ne (by rintro _ ⟨⟩) (by rintro ⟨⟩)⟩
  step := by
    intro l s t hs hg h
    cases l with
    | flags l => exact answers_flags h l
    | loop l => exact answers_loopStep hs h hg
    | worker w l => exact answers_workerStep hs h hg.2

end Simulated

/-- Every simulated server implements its service, for any number of workers and any limit.
Whatever its tasks, its handlers and its closers do, in whatever order, an observer of the
arrivals, the handlers started and finished, the failures and the closes sees a run of the
service: each arrival is routed to its own worker, handlers start in the order of arrival and
within the limit, and an item is lost only on a worker that has failed, after a close, or when
the permits of the worker are all out. This is an inclusion of what can be seen in finite time: a
server that does nothing has it too, see `simulated_observed` and `Core.Drain`. -/
theorem simulated_refines {α ρ β : Type} (L : SimulatedLoop α ρ β) (n : ℕ) (max : Option ℕ) :
    Lts.Refines (Simulated.server L n max) (fun l _ => Simulated.event l)
      (Service.sys (Simulated.spec L n max)) (fun l _ => l.event) :=
  (Simulated.simulation L n max).refines

/-- A TCP server with two workers and one permit for each is seen to accept a connection, to run
its handler on worker 1, and to be closed. -/
theorem simulated_observed :
    let L := simulatedTcpAcceptLoop (.v4 #v[127, 0, 0, 1] 80)
    let c : Connection := ⟨7, .v4 #v[127, 0, 0, 1] 55000⟩
    ∃ s, (Simulated.server L 2 (some 1)).Observed (fun l _ => Simulated.event l) (.initial (some 1))
      [.arrived c, .handled 1 ⟨7⟩, .finished 1 ⟨7⟩, .closed] s := by
  intro L c
  let x : Received Connection Connection := ⟨c, c, .peer⟩
  have hexec := (Simulated.server L 2 (some 1)).exists_run_of_exec
    [.loop .start, .loop (.load .runtime .head), .loop (.load .server .head),
      .loop (.recv .peer c), .loop (.load .runtime (.item x)), .loop (.load .server (.item x)),
      .loop (.route x), .loop (.tryAcquire 1 x .load false),
      .loop (.tryAcquire 1 x (.cas 0) false), .loop (.send 1 ⟨⟨7⟩, .peer⟩),
      .worker 1 .start, .worker 1 .load, .worker 1 (.recv ⟨⟨7⟩, .peer⟩),
      .worker 1 (.check ⟨⟨7⟩, .peer⟩), .worker 1 (.spawn ⟨⟨7⟩, .peer⟩),
      .worker 1 (.handlerEnd 0 ⟨⟨7⟩, .peer⟩), .flags .closeStore] (fun _ => True) (by decide)
  rcases hexec with ⟨s, hrun, -⟩
  exact ⟨s, hrun.observed Simulated.event⟩

end ReusePort
