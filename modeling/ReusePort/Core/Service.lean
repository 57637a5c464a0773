import Mathlib.Algebra.Order.Group.Multiset
import ReusePort.Refinement

/-!
# ReusePort.Core.Service — what a handler server is for

A handler server turns arrivals into handlers. Every arrival has a worker, or none;
the items of a worker wait in the order of their arrival, and a handler is started
for the first of them. A worker with a limit never has more handlers than that,
counting those that have ended and not yet given back their permit. An item may be
lost, but not without reason: the server has been closed, a handler could not be
started on the worker, or the worker has no permit left.

This is the specification that the native and the simulated servers are measured by.

* `handled_sublist` — handlers are started for arrivals, on the worker of the arrival,
  in order and at most once each;
* `handled_exact` — and for all of them, but those that are still waiting, where
  nothing gives a reason to lose one;
* `running_le` — the limit;
* `contract` — what this means for an observer of the server;
* `oneWorker` — and for the arrivals that are all routed alike, those of one connection, say;
* `View`, `Represents` — how the state of a server is read as one of the specification, and
  by which of its steps the specification answers (`Represents.shed` and so on).
-/

namespace ReusePort.Service

/-- Arrivals `γ` are routed to workers, and become work items `β`. Without a `limit` any
number of handlers may run on a worker; `refuses` tells whether an item that finds no permit
may be lost, or has to wait. -/
structure Spec (γ β : Type) where
  limit : Option ℕ
  refuses : Bool
  route : γ → Option ℕ
  item : γ → β

/-- Per worker: the items that wait, the items whose handlers run, how many handlers have
ended and still have their permit, and whether items may be lost for good. -/
structure St (β : Type) where
  pending : ℕ → List β
  running : ℕ → Multiset β
  ending : ℕ → ℕ
  down : ℕ → Bool

/-- What can be seen of a server. -/
inductive Event (γ β : Type) where
  | arrived (a : γ)
  | handled (w : ℕ) (b : β)
  | finished (w : ℕ) (b : β)
  | failed (w : ℕ)
  | closed
deriving DecidableEq, Repr

inductive Lbl (γ β : Type) where
  | arrive (a : γ)
  | shed (w : ℕ) (before : List β) (b : β) (after : List β)
  | handle (w : ℕ) (b : β)
  | finish (w : ℕ) (b : β)
  | release (w : ℕ)
  | fail (w : ℕ)
  | close

variable {γ β : Type}

/-- The permits of worker `w` that handlers have. -/
def St.load (t : St β) (w : ℕ) : ℕ := (t.running w).card + t.ending w

/-- A waiting item takes a permit too: where those of the other items and of the handlers
make up the limit, an item can be refused. -/
def guard (spec : Spec γ β) : Lbl γ β → St β → Prop
  | .arrive _, _ => True
  | .shed w before b after, t =>
      t.pending w = before ++ b :: after ∧
        (t.down w = true ∨ spec.refuses = true ∧
          ∃ m, spec.limit = some m ∧ m ≤ before.length + after.length + t.load w)
  | .handle w b, t =>
      (t.pending w).head? = some b ∧ ∀ m, spec.limit = some m → t.load w < m
  | .finish w b, t => b ∈ t.running w
  | .release w, t => 0 < t.ending w
  | .fail _, _ => True
  | .close, _ => True

open scoped Classical in
noncomputable def update (spec : Spec γ β) : Lbl γ β → St β → St β
  | .arrive a, t =>
      match spec.route a with
      | some w => { t with pending := Function.update t.pending w (t.pending w ++ [spec.item a]) }
      | none => t
  | .shed w before _ after, t =>
      { t with pending := Function.update t.pending w (before ++ after) }
  | .handle w b, t =>
      { t with
        pending := Function.update t.pending w (t.pending w).tail
        running := Function.update t.running w (b ::ₘ t.running w) }
  | .finish w b, t =>
      { t with
        running := Function.update t.running w ((t.running w).erase b)
        ending := Function.update t.ending w (t.ending w + 1) }
  | .release w, t => { t with ending := Function.update t.ending w (t.ending w - 1) }
  | .fail w, t => { t with down := Function.update t.down w true }
  | .close, t => { t with down := fun _ => true }

def St.initial : St β where
  pending := fun _ => []
  running := fun _ => 0
  ending := fun _ => 0
  down := fun _ => false

noncomputable def sys (spec : Spec γ β) : Lts.Sys (St β) (Lbl γ β) :=
  ⟨.initial, guard spec, update spec⟩

/-- Losing an item and giving back a permit cannot be seen. -/
def Lbl.event : Lbl γ β → Option (Event γ β)
  | .arrive a => some (.arrived a)
  | .shed _ _ _ _ => none
  | .handle w b => some (.handled w b)
  | .finish w b => some (.finished w b)
  | .release _ => none
  | .fail w => some (.failed w)
  | .close => some .closed

/-! ## Observations -/

/-- The arrivals that are routed to worker `w`, as work items. -/
def routed (spec : Spec γ β) (w : ℕ) (seen : List (Event γ β)) : List β :=
  seen.filterMap fun
    | .arrived a => if spec.route a = some w then some (spec.item a) else none
    | _ => none

/-- The items for which handlers were started on worker `w`. -/
def handled (w : ℕ) (seen : List (Event γ β)) : List β :=
  seen.filterMap fun
    | .handled v b => if v = w then some b else none
    | _ => none

/-- The items whose handlers on worker `w` have finished. -/
def finished (w : ℕ) (seen : List (Event γ β)) : List β :=
  seen.filterMap fun
    | .finished v b => if v = w then some b else none
    | _ => none

section Observations

variable {spec : Spec γ β} {w : ℕ} {seen : List (Event γ β)}

@[simp] theorem routed_append (seen' : List (Event γ β)) :
    routed spec w (seen ++ seen') = routed spec w seen ++ routed spec w seen' :=
  List.filterMap_append

@[simp] theorem handled_append (seen' : List (Event γ β)) :
    handled w (seen ++ seen') = handled w seen ++ handled w seen' :=
  List.filterMap_append

@[simp] theorem finished_append (seen' : List (Event γ β)) :
    finished w (seen ++ seen') = finished w seen ++ finished w seen' :=
  List.filterMap_append

@[simp] theorem routed_arrived (a : γ) :
    routed spec w [.arrived a] = if spec.route a = some w then [spec.item a] else [] := by
  by_cases h : spec.route a = some w <;> simp [routed, h]

@[simp] theorem handled_handled (v : ℕ) (b : β) :
    handled w ([.handled v b] : List (Event γ β)) = if v = w then [b] else [] := by
  by_cases h : v = w <;> simp [handled, h]

@[simp] theorem finished_finished (v : ℕ) (b : β) :
    finished w ([.finished v b] : List (Event γ β)) = if v = w then [b] else [] := by
  by_cases h : v = w <;> simp [finished, h]

end Observations

/-! ## Order -/

/-- What worker `w` has started and has waiting, against what was routed to it. -/
def Ordered (spec : Spec γ β) (w : ℕ) (seen : List (Event γ β)) (t : St β) : Prop :=
  (handled w seen ++ t.pending w).Sublist (routed spec w seen)

theorem pending_arrive (spec : Spec γ β) (a : γ) (t : St β) (w : ℕ) :
    (update spec (.arrive a) t).pending w =
      t.pending w ++ routed spec w [.arrived a] := by
  by_cases hroute : spec.route a = some w
  · simp [update, routed, hroute]
  · cases hv : spec.route a with
    | none => simp [update, routed, hv]
    | some v =>
        have hne : w ≠ v := by
          rintro rfl
          exact hroute hv
        simp [update, routed, hv, hne, hne.symm]

theorem pending_shed (spec : Spec γ β) {w : ℕ} {before after : List β} {b : β} {t : St β}
    (h : t.pending w = before ++ b :: after) (v : ℕ) :
    ((update spec (.shed w before b after) t).pending v).Sublist (t.pending v) := by
  by_cases hv : v = w
  · subst hv
    rw [h]
    simp only [update, Function.update_self]
    exact (List.sublist_cons_self b after).append_left before
  · simp only [update, Function.update_of_ne hv]
    exact List.Sublist.refl _

theorem pending_handle (spec : Spec γ β) {w : ℕ} {b : β} {t : St β}
    (h : (t.pending w).head? = some b) (v : ℕ) :
    handled v ([.handled w b] : List (Event γ β)) ++ (update spec (.handle w b) t).pending v =
      t.pending v := by
  by_cases hv : v = w
  · subst hv
    simp only [handled, update, Function.update_self, List.filterMap_cons, List.filterMap_nil,
      if_true, List.singleton_append]
    exact (List.eq_cons_of_mem_head? h).symm
  · simp [handled, update, Function.update_of_ne hv, Ne.symm hv]

theorem ordered_step {spec : Spec γ β} {w : ℕ} {seen : List (Event γ β)} {l : Lbl γ β}
    {t : St β} (hg : guard spec l t) (h : Ordered spec w seen t) :
    Ordered spec w (seen ++ l.event.toList) (update spec l t) := by
  unfold Ordered at *
  rw [handled_append, routed_append]
  cases l with
  | arrive a =>
      rw [pending_arrive]
      have hnone : handled w (Lbl.arrive a : Lbl γ β).event.toList = [] := rfl
      rw [hnone, List.append_nil, ← List.append_assoc]
      exact h.append_right _
  | shed v before b after =>
      have hless := pending_shed spec hg.1 w
      have hsame : (handled w seen ++ t.pending w).Sublist (routed spec w seen) := h
      simpa [Lbl.event, handled, routed] using (hless.append_left _).trans hsame
  | handle v b =>
      rw [List.append_assoc]
      have hnone : routed spec w (Lbl.handle v b : Lbl γ β).event.toList = [] := rfl
      rw [show (Lbl.handle v b : Lbl γ β).event.toList = [.handled v b] from rfl,
        pending_handle spec hg.1]
      simpa [routed] using h
  | finish v b | release v | fail v | close =>
      simpa [Lbl.event, handled, routed, update] using h

/-- Handlers are started for arrivals of their worker, in order, each at most once. -/
theorem handled_sublist {spec : Spec γ β} {seen : List (Event γ β)} {t : St β}
    (h : (sys spec).Observed (fun l _ => l.event) (sys spec).init seen t) (w : ℕ) :
    (handled w seen).Sublist (routed spec w seen) := by
  have hordered : Ordered spec w seen t :=
    h.invariant (Ordered spec w) (List.Sublist.refl _) (fun _ _ _ hg ih => ordered_step hg ih)
  exact (List.sublist_append_left _ _).trans hordered

/-! ## Nothing lost -/

/-- No item is refused for want of a permit. -/
def Spec.Patient (spec : Spec γ β) : Prop := spec.limit = none ∨ spec.refuses = false

/-- As long as the worker is not down and no item is refused, nothing is lost. -/
def Exact (spec : Spec γ β) (w : ℕ) (seen : List (Event γ β)) (t : St β) : Prop :=
  t.down w = false → handled w seen ++ t.pending w = routed spec w seen

theorem exact_step {spec : Spec γ β} (hpatient : spec.Patient) {w : ℕ}
    {seen : List (Event γ β)} {l : Lbl γ β} {t : St β} (hg : guard spec l t)
    (h : Exact spec w seen t) : Exact spec w (seen ++ l.event.toList) (update spec l t) := by
  intro hdown
  rw [handled_append, routed_append]
  cases l with
  | arrive a =>
      have hdown' : t.down w = false := by
        cases hroute : spec.route a <;> simpa [update, hroute] using hdown
      rw [pending_arrive, ← h hdown']
      simp [Lbl.event, handled]
  | shed v before b after =>
      rcases hg.2 with hv | ⟨hrefuses, m, hm, -⟩
      · -- another worker is down
        have hne : w ≠ v := by
          rintro rfl
          rw [show t.down w = false from hdown] at hv
          cases hv
        simpa [Lbl.event, handled, routed, update, Function.update_of_ne hne] using h hdown
      · rcases hpatient with hnone | hwaits
        · rw [hnone] at hm
          cases hm
        · rw [hwaits] at hrefuses
          cases hrefuses
  | handle v b =>
      rw [List.append_assoc, show (Lbl.handle v b : Lbl γ β).event.toList = [.handled v b] from rfl,
        pending_handle spec hg.1, h hdown]
      simp [routed]
  | fail v =>
      have hne : w ≠ v := by
        rintro rfl
        simp [update] at hdown
      simp only [update, Function.update_of_ne hne] at hdown
      simpa [Lbl.event, handled, routed, update] using h hdown
  | close => cases hdown
  | finish v b | release v => simpa [Lbl.event, handled, routed, update] using h hdown

/-- Where no item is refused, and while a worker is not down, a handler has been started for
every arrival of the worker, or the item is waiting for it. -/
theorem handled_exact {spec : Spec γ β} (hpatient : spec.Patient) {seen : List (Event γ β)}
    {t : St β} (h : (sys spec).Observed (fun l _ => l.event) (sys spec).init seen t) {w : ℕ}
    (hdown : t.down w = false) : handled w seen ++ t.pending w = routed spec w seen :=
  h.invariant (Exact spec w) (fun _ => rfl) (fun _ _ _ hg ih => exact_step hpatient hg ih) hdown

/-! ## Handlers -/

/-- A handler that finishes keeps its permit for a while. -/
theorem load_finish (spec : Spec γ β) {w : ℕ} {b : β} {t : St β} (hb : b ∈ t.running w)
    (v : ℕ) : (update spec (.finish w b) t).load v = t.load v := by
  classical
  by_cases hv : v = w
  · subst hv
    have hcard : ((t.running v).erase b).card + 1 = (t.running v).card :=
      Multiset.card_erase_add_one hb
    simp only [St.load, update, Function.update_self]
    omega
  · simp [St.load, update, Function.update_of_ne hv]

theorem load_step {spec : Spec γ β} {m : ℕ} (hlimit : spec.limit = some m) {l : Lbl γ β}
    {t : St β} (hg : guard spec l t) {w : ℕ} (h : t.load w ≤ m) :
    (update spec l t).load w ≤ m := by
  cases l with
  | arrive a => cases hroute : spec.route a <;> simpa [update, hroute, St.load] using h
  | handle v b =>
      by_cases hw : w = v
      · subst hw
        have hroom := hg.2 m hlimit
        simp only [St.load] at hroom
        simp only [St.load, update, Function.update_self, Multiset.card_cons]
        omega
      · simpa [St.load, update, Function.update_of_ne hw] using h
  | finish v b => rwa [load_finish spec hg]
  | release v =>
      by_cases hw : w = v
      · subst hw
        simp only [St.load] at h
        simp only [St.load, update, Function.update_self]
        omega
      · simpa [St.load, update, Function.update_of_ne hw] using h
  | shed v before b after | fail v | close => exact h

/-- The limit: handlers that run, and handlers that have ended and not yet given back
their permit. -/
theorem running_le {spec : Spec γ β} {m : ℕ} (hlimit : spec.limit = some m)
    {t : St β} (ht : (sys spec).Reachable t) (w : ℕ) : t.load w ≤ m :=
  (sys spec).invariant (fun t => t.load w ≤ m) (Nat.zero_le m)
    (fun _ _ hg h => load_step hlimit hg h) t ht

/-- What has been started runs or has finished. -/
def Balanced (w : ℕ) (seen : List (Event γ β)) (t : St β) : Prop :=
  (handled w seen : Multiset β) = t.running w + finished w seen

theorem balanced_step {spec : Spec γ β} {w : ℕ} {seen : List (Event γ β)} {l : Lbl γ β}
    {t : St β} (hg : guard spec l t) (h : Balanced w seen t) :
    Balanced w (seen ++ l.event.toList) (update spec l t) := by
  classical
  unfold Balanced at *
  rw [handled_append, finished_append, ← Multiset.coe_add, ← Multiset.coe_add, h]
  cases l with
  | arrive a =>
      cases hroute : spec.route a <;> simp [update, hroute, Lbl.event, handled, finished]
  | handle v b =>
      have hnone : finished w (Lbl.handle v b : Lbl γ β).event.toList = [] := rfl
      rw [hnone, Lbl.event, Option.toList_some, handled_handled]
      by_cases hw : v = w
      · subst hw
        simp only [if_true, update, Function.update_self, Multiset.coe_singleton, Multiset.coe_nil,
          add_zero]
        rw [add_comm, Multiset.singleton_add, Multiset.cons_add]
      · simp [hw, update, Function.update_of_ne (Ne.symm hw)]
  | finish v b =>
      have hnone : handled w (Lbl.finish v b : Lbl γ β).event.toList = [] := rfl
      rw [hnone, Lbl.event, Option.toList_some, finished_finished]
      by_cases hw : v = w
      · -- the item moves from the handlers that run to those that have finished
        subst hw
        simp only [if_true, update, Function.update_self, Multiset.coe_singleton, Multiset.coe_nil,
          add_zero]
        nth_rewrite 1 [← Multiset.cons_erase hg]
        rw [← add_assoc, Multiset.cons_add, ← Multiset.singleton_add, add_comm]
      · simp [hw, update, Function.update_of_ne (Ne.symm hw)]
  | shed v before b after | release v | fail v | close =>
      simp [Lbl.event, handled, finished, update]

/-- A worker is down exactly after the close, or a failure of its own. -/
def Blamed (w : ℕ) (seen : List (Event γ β)) (t : St β) : Prop :=
  t.down w = true → .closed ∈ seen ∨ .failed w ∈ seen

theorem blamed_step {spec : Spec γ β} {w : ℕ} {seen : List (Event γ β)} {l : Lbl γ β}
    {t : St β} (h : Blamed w seen t) :
    Blamed w (seen ++ l.event.toList) (update spec l t) := by
  intro hdown
  cases l with
  | arrive a =>
      have hdown' : t.down w = true := by
        cases hroute : spec.route a <;> simpa [update, hroute] using hdown
      simpa [Lbl.event] using h hdown'
  | fail v =>
      by_cases hw : w = v
      · exact Or.inr (by simp [Lbl.event, hw])
      · simp only [update, Function.update_of_ne hw] at hdown
        rcases h hdown with hclosed | hfailed
        · exact Or.inl (List.mem_append_left _ hclosed)
        · exact Or.inr (List.mem_append_left _ hfailed)
  | close => exact Or.inl (by simp [Lbl.event])
  | handle v b | finish v b => simpa [Lbl.event] using h hdown
  | shed v before b after | release v => simpa [Lbl.event] using h hdown

/-! ## The contract -/

/-- What can be said of the observations alone. On every worker, handlers are started for
arrivals of the worker, in order and each at most once; what finishes has been started;
the limit holds at any time; and where no item is refused, as long as the server is not closed
and nothing has failed on the worker, no arrival is passed over. -/
structure Contract (spec : Spec γ β) (w : ℕ) (seen : List (Event γ β)) : Prop where
  in_order : (handled w seen).Sublist (routed spec w seen)
  started : (finished w seen : Multiset β) ≤ handled w seen
  bounded : ∀ m, spec.limit = some m → (handled w seen).length ≤ (finished w seen).length + m
  lossless : spec.Patient → .closed ∉ seen → .failed w ∉ seen →
    handled w seen <+: routed spec w seen

theorem contract {spec : Spec γ β} {seen : List (Event γ β)} {t : St β}
    (h : (sys spec).Observed (fun l _ => l.event) (sys spec).init seen t) (w : ℕ) :
    Contract spec w seen := by
  have hbalanced : Balanced w seen t :=
    h.invariant (Balanced w) rfl (fun _ _ _ hg ih => balanced_step hg ih)
  have hblamed : Blamed w seen t :=
    h.invariant (Blamed w) (fun hdown => by cases hdown) (fun _ _ _ _ ih => blamed_step ih)
  refine ⟨handled_sublist h w, ?_, ?_, ?_⟩
  · rw [hbalanced]
    exact Multiset.le_add_left _ _
  · intro m hm
    have hload := running_le hm h.reachable w
    have hcard := congrArg Multiset.card hbalanced
    rw [Multiset.card_add, Multiset.coe_card, Multiset.coe_card] at hcard
    rw [St.load] at hload
    omega
  · intro hpatient hclosed hfailed
    have hdown : t.down w = false := by
      by_contra hdown
      rcases hblamed (by simpa using hdown) with hmem | hmem
      · exact hclosed hmem
      · exact hfailed hmem
    exact ⟨t.pending w, handled_exact hpatient h hdown⟩

/-! ## Affinity -/

/-- The arrivals. -/
def arrived (seen : List (Event γ β)) : List γ :=
  seen.filterMap fun
    | .arrived a => some a
    | _ => none

/-- The items with the property `p` are handled on worker `w` and nowhere else, in the order of
their arrival and each at most once; and where nothing gives a reason to lose one, none is
passed over. -/
structure OneWorker (spec : Spec γ β) (p : β → Prop) [DecidablePred p] (w : ℕ)
    (seen : List (Event γ β)) : Prop where
  alone : ∀ v, v ≠ w → ∀ b ∈ handled v seen, ¬ p b
  in_order : ((handled w seen).filter p).Sublist (((arrived seen).map spec.item).filter p)
  lossless : spec.Patient → .closed ∉ seen → .failed w ∉ seen →
    (handled w seen).filter p <+: ((arrived seen).map spec.item).filter p

section Affinity

variable {spec : Spec γ β} {p : β → Prop} [DecidablePred p] {w : ℕ} {seen : List (Event γ β)}

/-- All arrivals of such items are routed to the worker. -/
theorem filter_routed (hroute : ∀ a, p (spec.item a) → spec.route a = some w) :
    (routed spec w seen).filter p = ((arrived seen).map spec.item).filter p := by
  induction seen with
  | nil => rfl
  | cons e seen ih =>
      cases e with
      | arrived a =>
          have hcons : arrived (.arrived a :: seen : List (Event γ β)) = a :: arrived seen := rfl
          rw [← List.singleton_append, routed_append, routed_arrived, List.singleton_append, hcons,
            List.filter_append, ih, List.map_cons, List.filter_cons]
          by_cases ha : p (spec.item a)
          · simp [ha, hroute a ha]
          · -- the item is not one of them, whether or not it is routed to the worker
            by_cases hw : spec.route a = some w <;> simp [ha, hw]
      | handled v b | finished v b | failed v | closed => exact ih

omit [DecidablePred p] in
/-- What is routed to another worker is not one of them. -/
theorem not_mem_routed (hroute : ∀ a, p (spec.item a) → spec.route a = some w) {v : ℕ}
    (hv : v ≠ w) : ∀ b ∈ routed spec v seen, ¬ p b := by
  intro b hb hp
  rcases List.mem_filterMap.mp hb with ⟨e, -, he⟩
  cases e with
  | arrived a =>
      simp only [Option.ite_none_right_eq_some, Option.some.injEq] at he
      rcases he with ⟨hv', rfl⟩
      rw [hroute a hp] at hv'
      cases hv'
      exact hv rfl
  | handled _ _ | finished _ _ | failed _ | closed => cases he

theorem oneWorker (h : ∀ v, Contract spec v seen)
    (hroute : ∀ a, p (spec.item a) → spec.route a = some w) : OneWorker spec p w seen where
  alone := by
    intro v hv b hb
    exact not_mem_routed hroute hv b ((h v).in_order.subset hb)
  in_order := by
    rw [← filter_routed hroute]
    exact (h w).in_order.filter _
  lossless := by
    intro hpatient hclosed hfailed
    rw [← filter_routed hroute]
    exact ((h w).lossless hpatient hclosed hfailed).filter _

end Affinity

/-! ## Implementations

The state of a server is read worker by worker. A server may still have a permit that the
specification has given up with the item, but only on a worker that is down. -/

/-- What a server has of one worker; `up` says that it has no reason to lose an item. -/
structure Slot (β : Type) where
  waiting : List β
  running : Multiset β
  ending : ℕ
  up : Prop

/-- The same, with a reason. -/
def Slot.fallen (a : Slot β) : Slot β := ⟨a.waiting, a.running, a.ending, False⟩

/-- The slot as the specification sees worker `w`. -/
structure Slot.Matches (a : Slot β) (t : St β) (w : ℕ) : Prop where
  pending : t.pending w = a.waiting
  running : t.running w = a.running
  ending_le : t.ending w ≤ a.ending
  ending_eq : t.down w = false → t.ending w = a.ending
  up : t.down w = false → a.up

abbrev View (β : Type) := ℕ → Slot β

def Represents (v : View β) (t : St β) : Prop := ∀ w, (v w).Matches t w

/-- A change of a slot that concerns at most the waiting items. -/
structure Slot.Quiet (a a' : Slot β) : Prop where
  running : a'.running = a.running
  ending_le : a.ending ≤ a'.ending
  ending_eq : a.up → a'.ending = a.ending
  up : a.up → a'.up

theorem Slot.Quiet.refl (a : Slot β) : a.Quiet a :=
  ⟨rfl, le_refl _, fun _ => rfl, id⟩

/-- Two states of the specification that differ at most in what waits on worker `w`. -/
theorem Slot.Matches.quiet {a a' : Slot β} {t t' : St β} {w : ℕ} (h : a.Matches t w)
    (hquiet : a.Quiet a') (hrunning : t'.running w = t.running w)
    (hending : t'.ending w = t.ending w) (hdown : t'.down w = t.down w)
    (hpending : t'.pending w = a'.waiting) : a'.Matches t' w where
  pending := hpending
  running := by rw [hrunning, h.running, hquiet.running]
  ending_le := by
    rw [hending]
    exact h.ending_le.trans hquiet.ending_le
  ending_eq := by
    intro hup
    rw [hdown] at hup
    rw [hending, h.ending_eq hup, hquiet.ending_eq (h.up hup)]
  up := by
    intro hup
    rw [hdown] at hup
    exact hquiet.up (h.up hup)

theorem Slot.Matches.load_le {a : Slot β} {t : St β} {w : ℕ} (h : a.Matches t w) :
    t.load w ≤ a.running.card + a.ending := by
  rw [St.load, h.running]
  exact Nat.add_le_add_left h.ending_le _

/-- A step at worker `w`: the other workers are as they were. -/
theorem Represents.at_worker {v : View β} {a : Slot β} {t t' : St β} {w : ℕ}
    (h : Represents v t)
    (hframe : ∀ u, u ≠ w → t'.pending u = t.pending u ∧ t'.running u = t.running u ∧
      t'.ending u = t.ending u ∧ t'.down u = t.down u)
    (hw : a.Matches t' w) : Represents (Function.update v w a) t' := by
  refine (Function.forall_update_iff v fun u a => a.Matches t' u).mpr ⟨hw, ?_⟩
  intro u hu
  rcases hframe u hu with ⟨hpending, hrunning, hending, hdown⟩
  exact (h u).quiet (.refl _) hrunning hending hdown (hpending.trans (h u).pending)

theorem Slot.Quiet.update {v : View β} {w : ℕ} {a : Slot β} (h : (v w).Quiet a) (u : ℕ) :
    (v u).Quiet (Function.update v w a u) :=
  (Function.forall_update_iff v fun u a => (v u).Quiet a).mpr ⟨h, fun u _ => .refl (v u)⟩ u

/-! The answers of the specification to what a server does. -/

namespace Represents

variable {spec : Spec γ β} {v v' : View β} {a : Slot β} {t : St β} {w : ℕ} {b : β}

theorem stutter (h : Represents v t) (hquiet : ∀ u, (v u).Quiet (v' u))
    (hwaiting : ∀ u, (v' u).waiting = (v u).waiting) :
    Lts.Answers (sys spec) (fun l _ => l.event) [] (Represents v') t := by
  refine .stutter ?_
  intro u
  exact (h u).quiet (hquiet u) rfl rfl rfl ((h u).pending.trans (hwaiting u).symm)

theorem arrive (h : Represents v t) (a : γ) (hquiet : ∀ u, (v u).Quiet (v' u))
    (hwaiting : ∀ u, (v' u).waiting = (v u).waiting ++ routed spec u [.arrived a]) :
    Lts.Answers (sys spec) (fun l _ => l.event) [.arrived a] (Represents v') t := by
  have hsame : (update spec (.arrive a) t).running = t.running ∧
      (update spec (.arrive a) t).ending = t.ending ∧
      (update spec (.arrive a) t).down = t.down := by
    cases hroute : spec.route a <;> simp [update, hroute]
  rcases hsame with ⟨hrunning, hending, hdown⟩
  refine .step (.arrive a) trivial rfl ?_
  intro u
  refine (h u).quiet (hquiet u) (congrFun hrunning u) (congrFun hending u) (congrFun hdown u) ?_
  rw [hwaiting, ← (h u).pending]
  exact pending_arrive spec a t u

/-- An item is lost on a worker that is down, or one that has no permit left. -/
theorem shed (h : Represents v t) (before after : List β) (hquiet : ∀ u, (v u).Quiet (v' u))
    (hwas : (v w).waiting = before ++ b :: after) (hnow : (v' w).waiting = before ++ after)
    (hrest : ∀ u, u ≠ w → (v' u).waiting = (v u).waiting)
    (hwhy : (v w).up → spec.refuses = true ∧ ∃ m, spec.limit = some m ∧
      m ≤ before.length + after.length + ((v w).running.card + (v w).ending)) :
    Lts.Answers (sys spec) (fun l _ => l.event) [] (Represents v') t := by
  refine .step (.shed w before b after) ⟨(h w).pending.trans hwas, ?_⟩ rfl ?_
  · cases hdown : t.down w with
    | true => exact Or.inl rfl
    | false =>
        rcases hwhy ((h w).up hdown) with ⟨hrefuses, m, hlimit, hfull⟩
        refine Or.inr ⟨hrefuses, m, hlimit, ?_⟩
        rw [St.load, (h w).running, (h w).ending_eq hdown]
        exact hfull
  · intro u
    refine (h u).quiet (hquiet u) rfl rfl rfl ?_
    by_cases hu : u = w
    · subst hu
      exact (Function.update_self u _ t.pending).trans hnow.symm
    · exact (Function.update_of_ne hu _ t.pending).trans ((h u).pending.trans (hrest u hu).symm)

/-- Nothing that can be seen happens on worker `w`. -/
theorem stutter_at (h : Represents v t) (hquiet : (v w).Quiet a)
    (hwaiting : a.waiting = (v w).waiting) :
    Lts.Answers (sys spec) (fun l _ => l.event) [] (Represents (Function.update v w a)) t := by
  refine h.stutter hquiet.update ?_
  exact (Function.forall_update_iff v fun u a => a.waiting = (v u).waiting).mpr
    ⟨hwaiting, fun _ _ => rfl⟩

/-- An item is lost on worker `w`, which is down. -/
theorem shed_at (h : Represents v t) (before after : List β) (hquiet : (v w).Quiet a)
    (hwas : (v w).waiting = before ++ b :: after) (hnow : a.waiting = before ++ after)
    (hdown : ¬ (v w).up) :
    Lts.Answers (sys spec) (fun l _ => l.event) [] (Represents (Function.update v w a)) t := by
  refine h.shed before after hquiet.update hwas ?_ ?_ (fun hup => absurd hup hdown)
  · rw [Function.update_self]
    exact hnow
  · intro u hu
    rw [Function.update_of_ne hu]

/-- Any number of items are lost on worker `w`, which is down. -/
theorem shed_all (h : Represents v t) (before lost after : List β) (hquiet : (v w).Quiet a)
    (hwas : (v w).waiting = before ++ (lost ++ after)) (hnow : a.waiting = before ++ after)
    (hdown : ¬ (v w).up) :
    Lts.Answers (sys spec) (fun l _ => l.event) [] (Represents (Function.update v w a)) t := by
  induction lost generalizing v t with
  | nil => exact h.stutter_at hquiet (hnow.trans hwas.symm)
  | cons b lost ih =>
      -- the first of them, and then the others
      let rest : Slot β := ⟨before ++ (lost ++ after), (v w).running, (v w).ending, (v w).up⟩
      have hself : Function.update v w rest w = rest := Function.update_self w rest v
      have hlast : Function.update (Function.update v w rest) w a = Function.update v w a :=
        Function.update_idem ..
      refine Lts.Answers.trans ((h.shed_at before (lost ++ after) (b := b) (a := rest)
        ⟨rfl, le_refl _, fun _ => rfl, id⟩ hwas rfl hdown).imp ?_)
      intro t' h'
      rw [← hlast]
      refine ih h' ?_ ?_ ?_
      · rw [hself]
        exact ⟨hquiet.running, hquiet.ending_le, hquiet.ending_eq, hquiet.up⟩
      · rw [hself]
      · rw [hself]
        exact hdown

/-- Something fails on worker `w`, and the server need no longer be up there. -/
theorem fail (h : Represents v t) (w : ℕ) :
    Lts.Answers (sys spec) (fun l _ => l.event) [.failed w]
      (Represents (Function.update v w (v w).fallen)) t := by
  have hdown : (update spec (.fail w) t).down w = true := by simp [update]
  refine .step (.fail w) trivial rfl (h.at_worker ?_ ⟨?_, ?_, ?_, ?_, ?_⟩)
  · intro u hu
    exact ⟨rfl, rfl, rfl, by simp [sys, update, hu]⟩
  · exact (h w).pending
  · exact (h w).running
  · exact (h w).ending_le
  · intro hup
    exact absurd (hdown.symm.trans hup) (by decide)
  · intro hup
    exact absurd (hdown.symm.trans hup) (by decide)

/-- Items are lost to a failure. -/
theorem fail_shed (h : Represents v t) (before lost after : List β)
    (hrunning : a.running = (v w).running) (hending : (v w).ending ≤ a.ending)
    (hwas : (v w).waiting = before ++ (lost ++ after)) (hnow : a.waiting = before ++ after) :
    Lts.Answers (sys spec) (fun l _ => l.event) [.failed w]
      (Represents (Function.update v w a)) t := by
  have hself : Function.update v w (v w).fallen w = (v w).fallen := Function.update_self w _ v
  have hlast : Function.update (Function.update v w (v w).fallen) w a = Function.update v w a :=
    Function.update_idem ..
  show Lts.Answers (sys spec) (fun l _ => l.event) ([.failed w] ++ []) _ t
  refine .trans ((h.fail w).imp ?_)
  intro t' h'
  rw [← hlast]
  refine h'.shed_all before lost after ?_ ?_ hnow ?_
  · rw [hself]
    exact ⟨hrunning, hending, False.elim, False.elim⟩
  · rw [hself]
    exact hwas
  · rw [hself]
    exact id

theorem handle (h : Represents v t) (hwas : (v w).waiting = b :: a.waiting)
    (hrunning : a.running = b ::ₘ (v w).running) (hending : a.ending = (v w).ending)
    (hup : (v w).up → a.up)
    (hroom : ∀ m, spec.limit = some m → (v w).running.card + (v w).ending < m) :
    Lts.Answers (sys spec) (fun l _ => l.event) [.handled w b]
      (Represents (Function.update v w a)) t := by
  refine .step (.handle w b) ⟨?_, ?_⟩ rfl (h.at_worker ?_ ⟨?_, ?_, ?_, ?_, ?_⟩)
  · rw [(h w).pending, hwas]
    rfl
  · intro m hm
    exact (h w).load_le.trans_lt (hroom m hm)
  · intro u hu
    exact ⟨Function.update_of_ne hu _ t.pending, Function.update_of_ne hu _ t.running, rfl, rfl⟩
  · refine (Function.update_self w _ t.pending).trans ?_
    rw [(h w).pending, hwas]
    rfl
  · refine (Function.update_self w _ t.running).trans ?_
    rw [(h w).running, hrunning]
  · exact (h w).ending_le.trans hending.ge
  · intro hdown
    exact ((h w).ending_eq hdown).trans hending.symm
  · intro hdown
    exact hup ((h w).up hdown)

theorem finish (h : Represents v t) (hwaiting : a.waiting = (v w).waiting)
    (hrunning : (v w).running = b ::ₘ a.running)
    (hending : a.ending = (v w).ending + 1) (hup : (v w).up → a.up) :
    Lts.Answers (sys spec) (fun l _ => l.event) [.finished w b]
      (Represents (Function.update v w a)) t := by
  classical
  have hb : b ∈ t.running w := by
    rw [(h w).running, hrunning]
    exact Multiset.mem_cons_self b _
  refine .step (.finish w b) hb rfl (h.at_worker ?_ ⟨?_, ?_, ?_, ?_, ?_⟩)
  · intro u hu
    exact ⟨rfl, Function.update_of_ne hu _ t.running, Function.update_of_ne hu _ t.ending, rfl⟩
  · exact (h w).pending.trans hwaiting.symm
  · refine (Function.update_self w _ t.running).trans ?_
    rw [(h w).running, hrunning, Multiset.erase_cons_head]
  · refine (Function.update_self w _ t.ending).le.trans ?_
    rw [hending]
    exact Nat.add_le_add_right (h w).ending_le 1
  · intro hdown
    refine (Function.update_self w _ t.ending).trans ?_
    rw [hending, (h w).ending_eq hdown]
  · intro hdown
    exact hup ((h w).up hdown)

/-- A handler that has ended goes on with the drop of its permit. On a worker that is down
the specification may have fewer permits out, and then has nothing to do. -/
theorem release (h : Represents v t) (hwaiting : a.waiting = (v w).waiting)
    (hrunning : a.running = (v w).running) (hending : a.ending ≤ (v w).ending)
    (hending' : (v w).ending ≤ a.ending + 1)
    (hup : (v w).up → a.up) :
    Lts.Answers (sys spec) (fun l _ => l.event) [] (Represents (Function.update v w a)) t := by
  have hpending := (h w).pending.trans hwaiting.symm
  have hrunning' := (h w).running.trans hrunning.symm
  have hup' : t.down w = false → a.up := fun hdown => hup ((h w).up hdown)
  have hle := (h w).ending_le
  by_cases hfew : t.ending w ≤ a.ending
  · -- the permits of the specification are still out
    refine .stutter (h.at_worker (fun _ _ => ⟨rfl, rfl, rfl, rfl⟩)
      ⟨hpending, hrunning', hfew, ?_, hup'⟩)
    intro hdown
    have heq := (h w).ending_eq hdown
    omega
  · have hpos : 0 < t.ending w := by omega
    have hpred : t.ending w - 1 = a.ending := by omega
    have hnow := (Function.update_self w (t.ending w - 1) t.ending).trans hpred
    exact .step (.release w) hpos rfl (h.at_worker
      (fun u hu => ⟨rfl, rfl, Function.update_of_ne hu _ t.ending, rfl⟩)
      ⟨hpending, hrunning', hnow.le, fun _ => hnow, hup'⟩)

theorem close (h : Represents v t) (hwaiting : ∀ u, (v' u).waiting = (v u).waiting)
    (hrunning : ∀ u, (v' u).running = (v u).running)
    (hending : ∀ u, (v' u).ending = (v u).ending) :
    Lts.Answers (sys spec) (fun l _ => l.event) [.closed] (Represents v') t := by
  refine .step .close trivial rfl ?_
  intro u
  refine ⟨(h u).pending.trans (hwaiting u).symm, (h u).running.trans (hrunning u).symm,
    (h u).ending_le.trans (hending u).ge, ?_, ?_⟩
  · rintro ⟨⟩
  · rintro ⟨⟩

end Represents

end ReusePort.Service
