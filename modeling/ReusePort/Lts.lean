import Mathlib.Algebra.BigOperators.Group.List.Basic
import Mathlib.Data.List.Perm.Basic
import Mathlib.Logic.Function.Basic

/-!
# ReusePort.Lts — guarded labelled transition systems

A concurrent program is modelled by one state type and one label type. A
label names a single atomic step of one of the parties; its `guard` says when
the step can be taken and its `update` what it does. Everything the
development proves about interleavings goes through the rules below:

* `Sys.Run` — finite runs, with the labels taken, in order;
* `Sys.invariant`, `Sys.trace_invariant` — induction over runs, without and
  with the trace; `Run.avoids` — labels that a run never takes;
* `Sys.restrict`, `Run.restrict_or` — the runs all of whose steps meet a
  condition, and what becomes of the others;
* `Sys.exec` — the executable run, for closed instances;
* `Proc.fleet` — several copies of one process that read a common environment,
  with `Proc.preserves` and `Proc.avoids` to argue about one copy at a time;
* `sum_map_getElem`, `sum_map_set` — totals over a list of processes of which
  one takes a step;
* `Grounded` — histories in which every entry is justified by those before it.
-/

namespace Lts

universe u v

/-- A guarded transition system over states `σ` and labels `ℓ`. -/
structure Sys (σ : Type u) (ℓ : Type v) where
  init : σ
  guard : ℓ → σ → Prop
  update : ℓ → σ → σ

variable {σ : Type u} {ℓ : Type v}

namespace Sys

/-! ## Runs -/

/-- `Run S s tr s'`: from `s` the labels `tr`, taken in this order, lead to
`s'`. Runs grow at their end, as the histories they stand for do. -/
inductive Run (S : Sys σ ℓ) (s : σ) : List ℓ → σ → Prop where
  | nil : Run S s [] s
  | snoc {tr : List ℓ} {s' : σ} (l : ℓ) (hrun : Run S s tr s') (hguard : S.guard l s') :
      Run S s (tr ++ [l]) (S.update l s')

/-- The states some run from the initial state leads to. -/
def Reachable (S : Sys σ ℓ) (s : σ) : Prop := ∃ tr, S.Run S.init tr s

theorem Reachable.refl (S : Sys σ ℓ) : S.Reachable S.init := ⟨[], .nil⟩

theorem Reachable.step {S : Sys σ ℓ} {s : σ} {l : ℓ} (hs : S.Reachable s)
    (hg : S.guard l s) : S.Reachable (S.update l s) := by
  rcases hs with ⟨tr, hrun⟩
  exact ⟨tr ++ [l], .snoc l hrun hg⟩

/-- Runs compose. -/
theorem Run.append {S : Sys σ ℓ} {s₁ s₂ s₃ : σ} {tr₁ tr₂ : List ℓ}
    (h₁ : S.Run s₁ tr₁ s₂) (h₂ : S.Run s₂ tr₂ s₃) : S.Run s₁ (tr₁ ++ tr₂) s₃ := by
  induction h₂ with
  | nil => simpa using h₁
  | snoc l _ hg ih =>
      rw [← List.append_assoc]
      exact .snoc l ih hg

theorem Reachable.run {S : Sys σ ℓ} {s s' : σ} {tr : List ℓ} (hs : S.Reachable s)
    (hrun : S.Run s tr s') : S.Reachable s' := by
  rcases hs with ⟨before, hbefore⟩
  exact ⟨before ++ tr, hbefore.append hrun⟩

/-- A run can begin with one more step. -/
theorem Run.cons {S : Sys σ ℓ} {s s' : σ} {l : ℓ} {tr : List ℓ} (hg : S.guard l s)
    (h : S.Run (S.update l s) tr s') : S.Run s (l :: tr) s' :=
  Run.append (.snoc l .nil hg) h

/-! ## Invariance -/

/-- What holds of `s` and is kept by every step holds at the end of every run
from `s`. -/
theorem Run.preserves {S : Sys σ ℓ} {s s' : σ} {tr : List ℓ} (hrun : S.Run s tr s')
    (inv : σ → Prop) (hs : inv s)
    (hstep : ∀ l t, S.guard l t → inv t → inv (S.update l t)) : inv s' := by
  induction hrun with
  | nil => exact hs
  | snoc l _ hg ih => exact hstep l _ hg ih

/-- If `inv` holds at the beginning of a run, is kept by every step and rules out the
`bad` labels, the run takes none of them. -/
theorem Run.avoids {S : Sys σ ℓ} {s s' : σ} {tr : List ℓ} (hrun : S.Run s tr s')
    (inv : σ → Prop) (bad : ℓ → Prop) (hs : inv s)
    (hstep : ∀ l t, S.guard l t → inv t → inv (S.update l t))
    (hbad : ∀ l t, S.guard l t → inv t → ¬ bad l) : ∀ l ∈ tr, ¬ bad l := by
  induction hrun with
  | nil => simp
  | snoc l hrun hg ih =>
      intro k hk
      rcases List.mem_append.mp hk with hk | hk
      · exact ih k hk
      · rw [List.mem_singleton.mp hk]
        exact hbad l _ hg (hrun.preserves inv hs hstep)

/-- Inductive invariance: `inv` holds initially, every step keeps it, so it
holds in every reachable state. -/
theorem invariant (S : Sys σ ℓ) (inv : σ → Prop) (hinit : inv S.init)
    (hstep : ∀ l s, S.guard l s → inv s → inv (S.update l s)) :
    ∀ s, S.Reachable s → inv s := by
  rintro s ⟨tr, hrun⟩
  exact hrun.preserves inv hinit hstep

/-- Inductive invariance of a property of the state and of the labels taken so
far. The step case may use that the state is reachable. -/
theorem trace_invariant (S : Sys σ ℓ) (inv : List ℓ → σ → Prop) (hinit : inv [] S.init)
    (hstep : ∀ tr l s, S.Run S.init tr s → S.guard l s → inv tr s →
      inv (tr ++ [l]) (S.update l s)) :
    ∀ tr s, S.Run S.init tr s → inv tr s := by
  intro tr s hrun
  induction hrun with
  | nil => exact hinit
  | snoc l hrun hg ih => exact hstep _ l _ hrun hg ih

/-! ## Restricted runs -/

/-- The system that takes only the steps that meet the condition `ok`. -/
def restrict (S : Sys σ ℓ) (ok : ℓ → σ → Prop) : Sys σ ℓ where
  init := S.init
  guard := fun l s => S.guard l s ∧ ok l s
  update := S.update

instance (S : Sys σ ℓ) (ok : ℓ → σ → Prop) [∀ l s, Decidable (S.guard l s)]
    [∀ l s, Decidable (ok l s)] (l : ℓ) (s : σ) : Decidable ((S.restrict ok).guard l s) :=
  inferInstanceAs (Decidable (S.guard l s ∧ ok l s))

/-- A run of the restricted system is a run of the system. -/
theorem Run.of_restrict {S : Sys σ ℓ} {ok : ℓ → σ → Prop} {s s' : σ} {tr : List ℓ}
    (hrun : (S.restrict ok).Run s tr s') : S.Run s tr s' := by
  induction hrun with
  | nil => exact .nil
  | snoc l _ hg ih => exact .snoc l ih hg.1

/-- If a step against the condition leads to a `bad` state, and there is no way back
from one, then a run meets the condition or ends in a bad state. -/
theorem Run.restrict_or {S : Sys σ ℓ} {s : σ} {tr : List ℓ} (hrun : S.Run S.init tr s)
    (ok : ℓ → σ → Prop) (bad : σ → Prop)
    (hbad : ∀ l s, S.Reachable s → S.guard l s → ¬ ok l s → bad (S.update l s))
    (hstay : ∀ l s, S.Reachable s → S.guard l s → bad s → bad (S.update l s)) :
    (S.restrict ok).Run S.init tr s ∨ bad s := by
  induction hrun with
  | nil => exact Or.inl .nil
  | @snoc tr s l hrun hg ih =>
      have hs : S.Reachable s := ⟨tr, hrun⟩
      rcases ih with hok | hs'
      · by_cases hl : ok l s
        · exact Or.inl (.snoc l hok ⟨hg, hl⟩)
        · exact Or.inr (hbad l s hs hg hl)
      · exact Or.inr (hstay l s hs hg hs')

/-! ## Execution -/

/-- The executable run: the state the labels lead to, or `none` at the first
label whose guard fails. -/
def exec (S : Sys σ ℓ) [∀ l s, Decidable (S.guard l s)] (s : σ) : List ℓ → Option σ
  | [] => some s
  | l :: tr => if S.guard l s then S.exec (S.update l s) tr else none

/-- What `exec` computes is a run. -/
theorem run_of_exec (S : Sys σ ℓ) [∀ l s, Decidable (S.guard l s)] {s s' : σ} {tr : List ℓ}
    (h : S.exec s tr = some s') : S.Run s tr s' := by
  induction tr generalizing s with
  | nil =>
      cases h
      exact .nil
  | cons l tr ih =>
      by_cases hg : S.guard l s
      · rw [exec, if_pos hg] at h
        exact .cons hg (ih h)
      · rw [exec, if_neg hg] at h
        cases h

/-- A closed run whose end satisfies a decidable property: enough to evaluate
`exec`. -/
theorem exists_run_of_exec (S : Sys σ ℓ) [∀ l s, Decidable (S.guard l s)] (tr : List ℓ)
    (p : σ → Prop) [DecidablePred p]
    (h : ((S.exec S.init tr).map fun s => decide (p s)) = some true) :
    ∃ s, S.Run S.init tr s ∧ p s := by
  rcases hexec : S.exec S.init tr with _ | s
  · simp [hexec] at h
  · refine ⟨s, S.run_of_exec hexec, ?_⟩
    simpa [hexec] using h

end Sys

/-! ## Fleets

Copies of one process that share nothing but an environment, which they only
read. Steps of the environment and of the other copies leave a copy alone, so a
property of one copy and the environment needs two checks. -/

/-- A process that reads an environment `γ`: its own states are `κ` and its own
labels `ℓ`, those of the environment are `ε`. -/
structure Proc (γ κ ε ℓ : Type*) where
  env : γ
  start : κ
  envGuard : ε → γ → Prop
  envUpdate : ε → γ → γ
  guard : ℓ → γ → κ → Prop
  update : ℓ → γ → κ → κ

/-- The environment and the copies, by their index. -/
structure Fleet (γ κ : Type*) where
  env : γ
  proc : ℕ → κ

inductive FleetLbl (ε ℓ : Type*) where
  | env (e : ε)
  | proc (w : ℕ) (l : ℓ)
deriving DecidableEq, Repr

namespace Proc

variable {γ κ ε m : Type*} (P : Proc γ κ ε m)

/-- `n` copies of the process. -/
def fleet (n : ℕ) : Sys (Fleet γ κ) (FleetLbl ε m) where
  init := ⟨P.env, fun _ => P.start⟩
  guard
    | .env e, s => P.envGuard e s.env
    | .proc w l, s => w < n ∧ P.guard l s.env (s.proc w)
  update
    | .env e, s => { s with env := P.envUpdate e s.env }
    | .proc w l, s => { s with proc := Function.update s.proc w (P.update l s.env (s.proc w)) }

instance (n : ℕ) [∀ e g, Decidable (P.envGuard e g)] [∀ l g k, Decidable (P.guard l g k)] :
    ∀ l s, Decidable ((P.fleet n).guard l s)
  | .env e, s => inferInstanceAs (Decidable (P.envGuard e s.env))
  | .proc w l, s => inferInstanceAs (Decidable (w < n ∧ P.guard l s.env (s.proc w)))

variable {P}

/-- What the steps of the environment and of one copy keep is kept by every step. -/
theorem step_preserves {n : ℕ} (w : ℕ) (inv : γ → κ → Prop)
    (henv : ∀ e g k, P.envGuard e g → inv g k → inv (P.envUpdate e g) k)
    (hstep : ∀ l g k, P.guard l g k → inv g k → inv g (P.update l g k))
    (l : FleetLbl ε m) (t : Fleet γ κ) (hg : (P.fleet n).guard l t)
    (ht : inv t.env (t.proc w)) :
    inv ((P.fleet n).update l t).env (((P.fleet n).update l t).proc w) := by
  cases l with
  | env e => exact henv e t.env (t.proc w) hg ht
  | proc v l =>
      by_cases hvw : w = v
      · subst hvw
        simpa [fleet] using hstep l t.env (t.proc w) hg.2 ht
      · simpa [fleet, Function.update_of_ne hvw] using ht

/-- What holds of one copy at the beginning of a run, and is kept by the steps of
the environment and of that copy, holds of it at the end. -/
theorem preserves {n : ℕ} {s s' : Fleet γ κ} {tr : List (FleetLbl ε m)}
    (hrun : (P.fleet n).Run s tr s') (w : ℕ) (inv : γ → κ → Prop) (hs : inv s.env (s.proc w))
    (henv : ∀ e g k, P.envGuard e g → inv g k → inv (P.envUpdate e g) k)
    (hstep : ∀ l g k, P.guard l g k → inv g k → inv g (P.update l g k)) :
    inv s'.env (s'.proc w) :=
  hrun.preserves (fun t => inv t.env (t.proc w)) hs (step_preserves w inv henv hstep)

/-- One copy takes none of the steps that its invariant rules out. -/
theorem avoids {n : ℕ} {s s' : Fleet γ κ} {tr : List (FleetLbl ε m)}
    (hrun : (P.fleet n).Run s tr s') (w : ℕ) (inv : γ → κ → Prop) (bad : m → Prop)
    (hs : inv s.env (s.proc w))
    (henv : ∀ e g k, P.envGuard e g → inv g k → inv (P.envUpdate e g) k)
    (hstep : ∀ l g k, P.guard l g k → inv g k → inv g (P.update l g k))
    (hbad : ∀ l g k, P.guard l g k → inv g k → ¬ bad l) :
    ∀ l, .proc w l ∈ tr → ¬ bad l := by
  intro l hl
  have havoid := hrun.avoids (fun t => inv t.env (t.proc w))
    (fun k => ∃ l, k = .proc w l ∧ bad l) hs (step_preserves w inv henv hstep) ?_ _ hl
  · exact fun hb => havoid ⟨l, rfl, hb⟩
  · intro k t hg ht hk
    obtain ⟨l, rfl, hb⟩ := hk
    exact hbad l t.env (t.proc w) hg.2 ht hb

/-- Inductive invariance of one copy and the environment. -/
theorem invariant (inv : γ → κ → Prop) (hinit : inv P.env P.start)
    (henv : ∀ e g k, P.envGuard e g → inv g k → inv (P.envUpdate e g) k)
    (hstep : ∀ l g k, P.guard l g k → inv g k → inv g (P.update l g k)) {n : ℕ}
    {s : Fleet γ κ} (hs : (P.fleet n).Reachable s) (w : ℕ) : inv s.env (s.proc w) := by
  rcases hs with ⟨tr, hrun⟩
  exact preserves hrun w inv hinit henv hstep

end Proc

/-! ## Lists of processes

Processes that come and go are kept in a list and addressed by their position.
A total over the list splits into the part of the process that moves and the
part of the others, and only the first changes. -/

section Processes

variable {α : Type u} {M : Type v} [AddCommMonoid M] (f : α → M) {l : List α} {i : ℕ} {a : α}

theorem sum_map_getElem (h : l[i]? = some a) :
    (l.map f).sum = f a + ((l.eraseIdx i).map f).sum := by
  obtain ⟨hi, rfl⟩ := List.getElem?_eq_some_iff.mp h
  have hperm : (l[i] :: l.eraseIdx i).Perm l := List.getElem_cons_eraseIdx_perm hi
  rw [← (hperm.map f).sum_eq, List.map_cons, List.sum_cons]

theorem sum_map_set (h : l[i]? = some a) (b : α) :
    ((l.set i b).map f).sum = f b + ((l.eraseIdx i).map f).sum := by
  obtain ⟨hi, -⟩ := List.getElem?_eq_some_iff.mp h
  have hperm : (l.set i b).Perm (b :: l.eraseIdx i) := List.set_perm_cons_eraseIdx hi b
  rw [(hperm.map f).sum_eq, List.map_cons, List.sum_cons]

end Processes

/-! ## Histories

What has happened so far is kept in a list that grows at its end. -/

section Histories

variable {α : Type u} {just : List α → α → Prop} {log : List α} {a : α}

/-- Every entry of the history is justified by the entries before it. -/
def Grounded (just : List α → α → Prop) (log : List α) : Prop :=
  ∀ before a after, log = before ++ a :: after → just before a

theorem Grounded.nil : Grounded just [] := by
  intro before a after h
  simp at h

/-- A history grows by an entry that the history justifies. -/
theorem Grounded.snoc (h : Grounded just log) (ha : just log a) : Grounded just (log ++ [a]) := by
  intro before b after heq
  rcases List.eq_nil_or_concat after with rfl | ⟨after, c, rfl⟩
  · -- the new entry itself
    obtain ⟨rfl, hb⟩ := List.append_inj' heq rfl
    cases hb
    exact ha
  · -- an older entry: the new one stands at the end of what follows it
    have heq' : log ++ [a] = (before ++ b :: after) ++ [c] := by simpa using heq
    obtain ⟨hlog, -⟩ := List.append_inj' heq' rfl
    exact h before b after hlog

/-- A beginning of a grounded history is grounded. -/
theorem Grounded.left {later : List α} (h : Grounded just (log ++ later)) :
    Grounded just log := by
  intro before b after heq
  refine h before b (after ++ later) ?_
  rw [heq, List.append_assoc, List.cons_append]

end Histories

end Lts
