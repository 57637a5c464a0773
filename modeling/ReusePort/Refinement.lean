import ReusePort.Lts

/-!
# ReusePort.Refinement — one system as an implementation of another

A system implements another one if everything that can be observed of its runs can
be observed of a run of the other. Some steps are visible, as the event that an
observer sees; the others are not, and either system may take any number of them
between two events.

* `Sys.Observed` — runs, with what is seen of them;
* `Refines` — inclusion of the observations;
* `Simulation`, `Simulation.refines` — it is enough to relate the states, and to
  answer every step by steps with the same event;
* `Refines.observed` — what holds of the observations of the specification holds of
  those of the implementation;
* `Projects`, `Projects.reachable_iff` — one system as the other one with some detail.
-/

namespace Lts

universe u v

variable {σ τ : Type u} {ℓ m ω : Type v}

/-! ## Observations -/

/-- `Observed S event s seen s'`: some run from `s` leads to `s'`, and an observer sees the
events `seen`, in this order. What is seen of a step may depend on the state in which it is
taken. -/
inductive Sys.Observed (S : Sys σ ℓ) (event : ℓ → σ → Option ω) (s : σ) : List ω → σ → Prop where
  | nil : Observed S event s [] s
  | snoc {seen : List ω} {s' : σ} (l : ℓ) (h : Observed S event s seen s')
      (hguard : S.guard l s') :
      Observed S event s (seen ++ (event l s').toList) (S.update l s')

namespace Sys.Observed

variable {S : Sys σ ℓ} {event : ℓ → σ → Option ω} {s s' : σ} {seen : List ω}

theorem exists_run (h : S.Observed event s seen s') : ∃ tr, S.Run s tr s' := by
  induction h with
  | nil => exact ⟨[], .nil⟩
  | snoc l _ hg ih =>
      rcases ih with ⟨tr, hrun⟩
      exact ⟨tr ++ [l], .snoc l hrun hg⟩

theorem reachable (h : S.Observed event S.init seen s) : S.Reachable s := h.exists_run

theorem append {s'' : σ} {seen' : List ω} (h : S.Observed event s seen s')
    (h' : S.Observed event s' seen' s'') : S.Observed event s (seen ++ seen') s'' := by
  induction h' with
  | nil => simpa using h
  | snoc l _ hg ih =>
      rw [← List.append_assoc]
      exact .snoc l ih hg

theorem single (l : ℓ) (hg : S.guard l s) :
    S.Observed event s (event l s).toList (S.update l s) :=
  .snoc l .nil hg

/-- Inductive invariance of a property of the state and of what has been seen so far. -/
theorem invariant (h : S.Observed event S.init seen s) (inv : List ω → σ → Prop)
    (hinit : inv [] S.init)
    (hstep : ∀ seen l s, S.guard l s → inv seen s →
      inv (seen ++ (event l s).toList) (S.update l s)) : inv seen s := by
  induction h with
  | nil => exact hinit
  | snoc l _ hg ih => exact hstep _ l _ hg ih

end Sys.Observed

/-- Where the events do not depend on the states, they can be read off the labels. -/
theorem Sys.Run.observed {S : Sys σ ℓ} {s s' : σ} {tr : List ℓ} (hrun : S.Run s tr s')
    (event : ℓ → Option ω) : S.Observed (fun l _ => event l) s (tr.filterMap event) s' := by
  induction hrun with
  | nil => exact .nil
  | @snoc tr s' l _ hg ih =>
      have hlast : [l].filterMap event = (event l).toList := by
        cases hl : event l <;> simp [hl]
      rw [List.filterMap_append, hlast]
      exact .snoc l ih hg

/-- What an observer sees of the steps `tr` from `s`. -/
def Sys.seen (S : Sys σ ℓ) (event : ℓ → σ → Option ω) (s : σ) : List ℓ → List ω
  | [] => []
  | l :: tr => (event l s).toList ++ S.seen event (S.update l s) tr

theorem Sys.observed_of_exec (S : Sys σ ℓ) [∀ l s, Decidable (S.guard l s)]
    (event : ℓ → σ → Option ω) {s s' : σ} {tr : List ℓ} (h : S.exec s tr = some s') :
    S.Observed event s (S.seen event s tr) s' := by
  induction tr generalizing s with
  | nil =>
      cases h
      exact .nil
  | cons l tr ih =>
      simp only [exec] at h
      split at h
      · rename_i hg
        exact (Observed.single l hg).append (ih h)
      · cases h

/-! ## Refinement -/

/-- Every observation of `C` is one of `A`. -/
def Refines (C : Sys σ ℓ) (eventC : ℓ → σ → Option ω) (A : Sys τ m) (eventA : m → τ → Option ω) :
    Prop :=
  ∀ seen s, C.Observed eventC C.init seen s → ∃ t, A.Observed eventA A.init seen t

/-- The specification can take steps from `t` that show the events `seen` and lead to a
state with the property `p`. -/
def Answers (A : Sys τ m) (event : m → τ → Option ω) (seen : List ω) (p : τ → Prop) (t : τ) :
    Prop :=
  ∃ t', A.Observed event t seen t' ∧ p t'

namespace Answers

variable {A : Sys τ m} {event : m → τ → Option ω} {seen : List ω} {p : τ → Prop} {t : τ}

/-- The specification does not move. -/
theorem stutter (h : p t) : Answers A event [] p t :=
  ⟨t, .nil, h⟩

/-- The specification takes one step. -/
theorem step (l : m) (hg : A.guard l t) (hseen : (event l t).toList = seen)
    (h : p (A.update l t)) : Answers A event seen p t := by
  subst hseen
  exact ⟨A.update l t, .single l hg, h⟩

/-- One answer after the other. -/
theorem trans {seen' : List ω} (h : Answers A event seen (Answers A event seen' p) t) :
    Answers A event (seen ++ seen') p t := by
  rcases h with ⟨t', hseen, t'', hseen', hp⟩
  exact ⟨t'', hseen.append hseen', hp⟩

theorem imp {q : τ → Prop} (h : Answers A event seen p t) (himp : ∀ t, p t → q t) :
    Answers A event seen q t := by
  rcases h with ⟨t', hseen, hp⟩
  exact ⟨t', hseen, himp t' hp⟩

end Answers

/-- A forward simulation: the initial states are related, and every step of `C` from a
reachable state is answered by steps of `A` that show the same event. -/
structure Simulation (C : Sys σ ℓ) (eventC : ℓ → σ → Option ω) (A : Sys τ m)
    (eventA : m → τ → Option ω) where
  rel : σ → τ → Prop
  init : rel C.init A.init
  step : ∀ l s t, C.Reachable s → C.guard l s → rel s t →
    Answers A eventA (eventC l s).toList (rel (C.update l s)) t

namespace Simulation

variable {C : Sys σ ℓ} {eventC : ℓ → σ → Option ω} {A : Sys τ m} {eventA : m → τ → Option ω}

/-- A run of `C` is followed by a run of `A` with the same events, to a related state. -/
theorem run (R : Simulation C eventC A eventA) {seen : List ω} {s : σ}
    (h : C.Observed eventC C.init seen s) :
    ∃ t, A.Observed eventA A.init seen t ∧ R.rel s t := by
  induction h with
  | nil => exact ⟨A.init, .nil, R.init⟩
  | @snoc seen s l h hg ih =>
      rcases ih with ⟨t, hseen, hrel⟩
      rcases R.step l s t h.reachable hg hrel with ⟨t', hstep, hrel'⟩
      exact ⟨t', hseen.append hstep, hrel'⟩

theorem refines (R : Simulation C eventC A eventA) : Refines C eventC A eventA := by
  intro seen s h
  rcases R.run h with ⟨t, hseen, -⟩
  exact ⟨t, hseen⟩

end Simulation

/-- What holds of every observation of the specification. -/
theorem Refines.observed {C : Sys σ ℓ} {eventC : ℓ → σ → Option ω} {A : Sys τ m}
    {eventA : m → τ → Option ω} (h : Refines C eventC A eventA) {p : List ω → Prop}
    (hp : ∀ seen t, A.Observed eventA A.init seen t → p seen) {seen : List ω} {s : σ}
    (hseen : C.Observed eventC C.init seen s) : p seen := by
  rcases h seen s hseen with ⟨t, ht⟩
  exact hp seen t ht

/-! ## Projections -/

/-- `f` forgets the detail of `C` that no guard looks at. -/
structure Projects (C : Sys σ ℓ) (A : Sys τ ℓ) (f : σ → τ) : Prop where
  init : f C.init = A.init
  guard : ∀ l s, C.guard l s ↔ A.guard l (f s)
  update : ∀ l s, f (C.update l s) = A.update l (f s)

namespace Projects

variable {C : Sys σ ℓ} {A : Sys τ ℓ} {f : σ → τ}

theorem run (h : Projects C A f) {s s' : σ} {tr : List ℓ} (hrun : C.Run s tr s') :
    A.Run (f s) tr (f s') := by
  induction hrun with
  | nil => exact .nil
  | snoc l _ hg ih =>
      rw [h.update]
      exact .snoc l ih ((h.guard l _).mp hg)

/-- Every step of the projected system comes from one of the system. -/
theorem lift (h : Projects C A f) {s : σ} {t t' : τ} {tr : List ℓ} (ht : f s = t)
    (hrun : A.Run t tr t') : ∃ s', C.Run s tr s' ∧ f s' = t' := by
  induction hrun with
  | nil => exact ⟨s, .nil, ht⟩
  | snoc l _ hg ih =>
      rcases ih with ⟨s', hrun, hs'⟩
      rw [← hs'] at hg ⊢
      exact ⟨_, .snoc l hrun ((h.guard l s').mpr hg), h.update l s'⟩

theorem reachable_iff (h : Projects C A f) (t : τ) :
    A.Reachable t ↔ ∃ s, C.Reachable s ∧ f s = t := by
  constructor
  · rintro ⟨tr, hrun⟩
    rcases h.lift h.init hrun with ⟨s, hs, hst⟩
    exact ⟨s, ⟨tr, hs⟩, hst⟩
  · rintro ⟨s, ⟨tr, hrun⟩, rfl⟩
    refine ⟨tr, ?_⟩
    rw [← h.init]
    exact h.run hrun

/-- Both systems reach the property, or neither does. -/
theorem exists_iff (h : Projects C A f) (p : τ → Prop) :
    (∃ s, C.Reachable s ∧ p (f s)) ↔ ∃ t, A.Reachable t ∧ p t := by
  constructor
  · rintro ⟨s, hs, hp⟩
    exact ⟨f s, (h.reachable_iff _).mpr ⟨s, hs, rfl⟩, hp⟩
  · rintro ⟨t, ht, hp⟩
    rcases (h.reachable_iff t).mp ht with ⟨s, hs, rfl⟩
    exact ⟨s, hs, hp⟩

theorem restrict (h : Projects C A f) (ok : ℓ → Prop) :
    Projects (C.restrict fun l _ => ok l) (A.restrict fun l _ => ok l) f where
  init := h.init
  guard := fun l s => and_congr_left' (h.guard l s)
  update := h.update

end Projects

end Lts
