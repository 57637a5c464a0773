import Mathlib
import ReusePort.Lts

/-!
# ReusePort.Progress — bounded runs

A system that lowers a rank with every step cannot run for longer than its rank, and
every run of it can be continued until nothing is left to do. What it has achieved
by then is a property of the states in which it is stuck.

* `Costs`, `Costs.length_le` — the steps of a run, against a rank that a few of them may
  raise;
* `contended` — the rank of contenders that can set each other back by succeeding;
* `sum_update` — a total over a fleet of processes of which one takes a step;
* `Ranked`, `Ranked.completes` — where every step lowers the rank, every run is short
  and leads to a state without a next step.
-/

namespace Lts

universe u v

variable {σ : Type u} {ℓ : Type v} {S : Sys σ ℓ}

/-- Every step lowers the rank, but the `futile` ones may raise it, by less than `k`. -/
def Costs (S : Sys σ ℓ) (rank : σ → ℕ) (futile : ℓ → Bool) (k : ℕ) : Prop :=
  ∀ l s, S.guard l s → rank (S.update l s) + 1 ≤ rank s + if futile l then k else 0

/-- A run is no longer than the rank of its beginning, and `k` for each of its futile steps. -/
theorem Costs.length_le {rank : σ → ℕ} {futile : ℓ → Bool} {k : ℕ} (h : Costs S rank futile k)
    {s s' : σ} {tr : List ℓ} (hrun : S.Run s tr s') :
    tr.length + rank s' ≤ rank s + k * tr.countP futile := by
  induction hrun with
  | nil => simp
  | @snoc tr s' l _ hg ih =>
      have hstep := h l s' hg
      rw [List.length_append, List.length_singleton, List.countP_append, List.countP_singleton,
        Nat.mul_add]
      -- the last step is futile, or it is not
      split at hstep
      · rename_i hl
        rw [if_pos hl]
        omega
      · rename_i hl
        rw [if_neg hl]
        omega

/-! ## Contention

Contenders that repeat an attempt until it succeeds can set each other back, but only
by succeeding. Each of them has at most `k` steps ahead of it when nobody interferes;
`unsettled` counts the successes to come. -/

/-- Every success to come can set all contenders back once. -/
def contended (k holders unsettled work : ℕ) : ℕ := k * holders * unsettled + work

section Contended

variable {k holders holders' unsettled unsettled' work work' : ℕ}

/-- A contender gets on with its own work. -/
theorem contended_own {g : ℕ} (hholders : holders' ≤ holders) (hunsettled : unsettled' ≤ unsettled)
    (hwork : work' + 1 ≤ work + g) :
    contended k holders' unsettled' work' + 1 ≤ contended k holders unsettled work + g := by
  have hmul : k * holders' * unsettled' ≤ k * holders * unsettled :=
    Nat.mul_le_mul (Nat.mul_le_mul_left k hholders) hunsettled
  unfold contended
  omega

/-- A contender succeeds: the others may have to start again, but there is one success less
that can make them. -/
theorem contended_turn (hholders : holders' ≤ holders) (hunsettled : unsettled' + 1 ≤ unsettled)
    (hwork : work' + 1 ≤ k * holders + work) :
    contended k holders' unsettled' work' + 1 ≤ contended k holders unsettled work := by
  have hmul : k * holders' * unsettled' ≤ k * holders * unsettled' :=
    Nat.mul_le_mul_right _ (Nat.mul_le_mul_left k hholders)
  have hless : k * holders * unsettled' + k * holders ≤ k * holders * unsettled :=
    Nat.mul_le_mul_left (k * holders) hunsettled
  unfold contended
  omega

end Contended

/-! ## Totals over a fleet -/

section Fleet

variable {κ : Type*} (f : κ → ℕ) (n : ℕ) {g : ℕ → κ} {w : ℕ} {k : κ}

theorem sum_update (k : κ) (hw : w < n) :
    ∑ u ∈ Finset.range n, f (Function.update g w k u) + f (g w) =
      ∑ u ∈ Finset.range n, f (g u) + f k := by
  have hmem : w ∈ Finset.range n := Finset.mem_range.mpr hw
  have hupdate : ∀ u, f (Function.update g w k u) = Function.update (fun v => f (g v)) w (f k) u :=
    Function.apply_update (fun _ => f) g w k
  have hwhole := Finset.add_sum_erase _ (fun u => f (g u)) hmem
  rw [Finset.sum_congr rfl fun u _ => hupdate u, Finset.sum_update_of_mem hmem,
    Finset.sdiff_singleton_eq_erase]
  omega

/-- The process may also be none of the `n`. -/
theorem sum_update_le {m : ℕ} (hk : f k = f (g w) + m) :
    ∑ u ∈ Finset.range n, f (Function.update g w k u) ≤ ∑ u ∈ Finset.range n, f (g u) + m := by
  rcases Nat.lt_or_ge w n with hw | hw
  · have hsum := sum_update f n (g := g) k hw
    omega
  · have hsame : ∀ u ∈ Finset.range n, f (Function.update g w k u) = f (g u) := by
      intro u hu
      have hne : u ≠ w := by
        have hlt := Finset.mem_range.mp hu
        omega
      rw [Function.update_of_ne hne]
    rw [Finset.sum_congr rfl hsame]
    exact Nat.le_add_right _ m

end Fleet

/-! ## Ranks -/

/-- Nothing is left to do. -/
def Sys.Stuck (S : Sys σ ℓ) (s : σ) : Prop := ∀ l, ¬ S.guard l s

theorem Sys.Stuck.restrict {s : σ} (h : S.Stuck s) (ok : ℓ → σ → Prop) :
    (S.restrict ok).Stuck s :=
  fun l hg => h l hg.1

/-- Every step from a state with the invariant keeps it and lowers the rank. -/
structure Ranked (S : Sys σ ℓ) (inv : σ → Prop) (rank : σ → ℕ) : Prop where
  keeps : ∀ l s, S.guard l s → inv s → inv (S.update l s)
  lowers : ∀ l s, S.guard l s → inv s → rank (S.update l s) < rank s

namespace Ranked

variable {inv : σ → Prop} {rank : σ → ℕ}

theorem restrict (h : Ranked S inv rank) (ok : ℓ → σ → Prop) :
    Ranked (S.restrict ok) inv rank where
  keeps := fun l s hg => h.keeps l s hg.1
  lowers := fun l s hg => h.lowers l s hg.1

theorem length_le (h : Ranked S inv rank) {s s' : σ} (hs : inv s) {tr : List ℓ}
    (hrun : S.Run s tr s') : tr.length + rank s' ≤ rank s := by
  induction hrun with
  | nil => simp
  | @snoc tr s' l hrun hg ih =>
      have hs' : inv s' := hrun.preserves inv hs h.keeps
      have hlt := h.lowers l s' hg hs'
      rw [List.length_append, List.length_singleton]
      omega

theorem exists_stuck (h : Ranked S inv rank) {s : σ} (hs : inv s) :
    ∃ tr s', S.Run s tr s' ∧ S.Stuck s' := by
  -- a step lowers the rank, so the induction is on the rank
  induction hr : rank s using Nat.strongRecOn generalizing s with
  | ind r ih =>
      by_cases hstuck : S.Stuck s
      · exact ⟨[], s, .nil, hstuck⟩
      · obtain ⟨l, hg⟩ : ∃ l, S.guard l s := by
          simpa [Sys.Stuck] using hstuck
        have hlt : rank (S.update l s) < r := by
          rw [← hr]
          exact h.lowers l s hg hs
        rcases ih _ hlt (h.keeps l s hg hs) rfl with ⟨tr, s', hrun, hend⟩
        exact ⟨l :: tr, s', .cons hg hrun, hend⟩

/-- Whatever steps are taken, there are no more of them than the rank, and they can be
continued until nothing is left to do. -/
theorem completes (h : Ranked S inv rank) {s s' : σ} (hs : inv s) {tr : List ℓ}
    (hrun : S.Run s tr s') :
    tr.length ≤ rank s ∧ ∃ tr' s'', S.Run s' tr' s'' ∧ S.Stuck s'' := by
  have hlen := h.length_le hs hrun
  refine ⟨by omega, h.exists_stuck ?_⟩
  exact hrun.preserves inv hs h.keeps

end Ranked

end Lts
