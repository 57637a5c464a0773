import Mathlib

/-!
# ReusePort.Coherence — an atomic word in weak memory

What a weak memory promises about one word that is only ever changed by atomic
read-modify-write operations. The values of the word have one order, that of the writes; a
thread that knows of one of them never reads an older one again, but it may go on reading
values that have long been replaced; and an exchange writes right behind the value it has
read, a place that no other write may have taken. What a thread knows of is a number, its
view. Views are passed on by whatever synchronises two threads, which is not the word's
business: with a single word the memory orderings of its own accesses add nothing.

* `Word.Reads`, `Word.canExchange` — the values that a thread can read, and exchange;
* `Word.exists_falls` — between a value and a smaller one written later the word falls.
-/

namespace Coherence

/-- A word with all the values it has had; the one of number `latest` is the last. -/
structure Word (α : Type*) where
  value : ℕ → α
  latest : ℕ

namespace Word

variable {α : Type*} {w : Word α} {view read k : ℕ}

/-- A word that has been written once. -/
def new (a : α) : Word α := ⟨fun _ => a, 0⟩

/-- The value that an exchange gets to see. -/
def current (w : Word α) : α := w.value w.latest

/-- A thread that knows of the value number `view` can read the value number `read`. -/
def Reads (w : Word α) (view read : ℕ) : Prop := view ≤ read ∧ read ≤ w.latest

instance (w : Word α) (view read : ℕ) : Decidable (w.Reads view read) :=
  inferInstanceAs (Decidable (_ ∧ _))

/-- The place behind the value number `read` is free. -/
def canExchange (w : Word α) (read : ℕ) : Bool := w.latest < read + 1

/-- One more value. -/
def write (w : Word α) (a : α) : Word α :=
  ⟨Function.update w.value (w.latest + 1) a, w.latest + 1⟩

@[simp] theorem latest_write (w : Word α) (a : α) : (w.write a).latest = w.latest + 1 := rfl

@[simp] theorem current_write (w : Word α) (a : α) : (w.write a).current = a :=
  Function.update_self _ _ _

theorem value_write_of_le (h : k ≤ w.latest) (a : α) : (w.write a).value k = w.value k := by
  apply Function.update_of_ne
  omega

theorem Reads.latest (h : view ≤ w.latest) : w.Reads view w.latest := ⟨h, Nat.le_refl _⟩

/-- An exchange that succeeds has read the latest value: all others have been exchanged
already. -/
theorem Reads.eq_latest (h : w.Reads view read) (hfree : w.canExchange read = true) :
    read = w.latest := by
  have hlt : w.latest < read + 1 := of_decide_eq_true hfree
  have := h.2
  omega

@[simp] theorem canExchange_latest (w : Word α) : w.canExchange w.latest = true := by
  simp [canExchange]

/-! ## Where a word falls -/

section Falls

variable [LinearOrder α]

/-- The value after number `k` is a smaller one. -/
def Falls (w : Word α) (k : ℕ) : Prop := k < w.latest ∧ w.value (k + 1) < w.value k

theorem exists_falls (h : k ≤ w.latest) (hlt : w.current < w.value k) :
    ∃ j, k ≤ j ∧ w.Falls j := by
  by_contra hnone
  push Not at hnone
  -- without a fall the values from `k` on go up
  have hup : ∀ n, k + n ≤ w.latest → w.value k ≤ w.value (k + n) := by
    intro n
    induction n with
    | zero => exact fun _ => le_rfl
    | succ n ih =>
        intro hn
        have hstep : ¬ w.value (k + n + 1) < w.value (k + n) := by
          intro hfall
          exact hnone (k + n) (Nat.le_add_right _ _) ⟨hn, hfall⟩
        exact (ih (Nat.le_of_succ_le hn)).trans (not_lt.mp hstep)
  rcases Nat.exists_eq_add_of_le h with ⟨n, hn⟩
  have hle := hup n (Nat.le_of_eq hn.symm)
  rw [← hn] at hle
  exact absurd hlt (not_lt.mpr hle)

/-- A write falls, if it does, behind the value that was the latest. -/
theorem falls_write {a : α} (h : (w.write a).Falls k) :
    w.Falls k ∨ k = w.latest ∧ a < w.current := by
  rcases h with ⟨hk, hfall⟩
  rcases Nat.lt_succ_iff_lt_or_eq.mp hk with hk | rfl
  · rw [value_write_of_le (Nat.le_of_lt hk), value_write_of_le hk] at hfall
    exact Or.inl ⟨hk, hfall⟩
  · rw [value_write_of_le (Nat.le_refl _)] at hfall
    refine Or.inr ⟨rfl, ?_⟩
    rwa [← current_write w a]

end Falls

end Word

end Coherence
