import Mathlib.Data.Int.CardIntervalMod
import Mathlib.Data.Fintype.EquivFin

/-!
# ReusePort.Fnv — xor-then-multiply hashes over words of any width

A hash of the FNV-1a kind absorbs one word at a time: it xors the word into the
state and multiplies by a fixed multiplier, modulo `2 ^ w`. The multiplier is
odd, so each step is a permutation of the states, and it stays one when the
state is cut down to its low `k` bits.

* `hash_injective` — the states that enter a common suffix stay apart;
* `hash_ne_of_existsUnique` — equally long inputs that differ in one place have
  different hashes;
* `count_hash_mod` — as one word runs over `2 ^ v` values, the hash modulo `2 ^ k`
  takes each value equally often.
-/

namespace Fnv

variable {w k : ℕ}

/-- Absorb one word. -/
def absorb (prime state word : BitVec w) : BitVec w :=
  (state ^^^ word) * prime

/-- Absorb a list of words from a given state. -/
def hash (prime state : BitVec w) (words : List (BitVec w)) : BitVec w :=
  words.foldl (absorb prime) state

@[simp] theorem hash_nil (prime state : BitVec w) : hash prime state [] = state := rfl

@[simp] theorem hash_cons (prime state word : BitVec w) (words : List (BitVec w)) :
    hash prime state (word :: words) = hash prime (absorb prime state word) words := rfl

/-! ## One step is a permutation -/

/-- A multiplier that is invertible modulo `2 ^ w` cancels. -/
theorem mul_right_cancel {prime x y : BitVec w} (hp : prime.toNat.Coprime (2 ^ w))
    (h : x * prime = y * prime) : x = y := by
  have hmod : x.toNat * prime.toNat ≡ y.toNat * prime.toNat [MOD 2 ^ w] := by
    have := congrArg BitVec.toNat h
    rwa [BitVec.toNat_mul, BitVec.toNat_mul] at this
  have hxy := Nat.ModEq.cancel_right_of_coprime hp.symm hmod
  exact BitVec.eq_of_toNat_eq (Nat.ModEq.eq_of_lt_of_lt hxy x.isLt y.isLt)

/-- A state is recovered from the step it takes. -/
theorem absorb_injective {prime : BitVec w} (hp : prime.toNat.Coprime (2 ^ w))
    (word : BitVec w) : Function.Injective (absorb prime · word) := by
  intro x y h
  exact (BitVec.xor_left_inj _).mp (mul_right_cancel hp h)

/-- An absorbed word is recovered from the states around it. -/
theorem absorb_word_injective {prime : BitVec w} (hp : prime.toNat.Coprime (2 ^ w))
    (state : BitVec w) : Function.Injective (absorb prime state) := by
  intro x y h
  exact (BitVec.xor_right_inj _).mp (mul_right_cancel hp h)

theorem hash_injective {prime : BitVec w} (hp : prime.toNat.Coprime (2 ^ w))
    (words : List (BitVec w)) : Function.Injective (hash prime · words) := by
  induction words with
  | nil => exact fun _ _ h => h
  | cons word words ih => exact ih.comp (absorb_injective hp word)

/-- A single differing word is still seen in the hash. -/
theorem hash_ne_of_existsUnique {prime : BitVec w} (hp : prime.toNat.Coprime (2 ^ w))
    (state : BitVec w) {xs ys : List (BitVec w)} (hlen : xs.length = ys.length)
    (h : ∃! i : ℕ, xs[i]? ≠ ys[i]?) : hash prime state xs ≠ hash prime state ys := by
  induction xs generalizing ys state with
  | nil =>
      obtain ⟨i, hi, -⟩ := h
      rw [List.length_nil] at hlen
      rw [List.eq_nil_of_length_eq_zero hlen.symm] at hi
      exact absurd rfl hi
  | cons x xs ih =>
      rcases ys with _ | ⟨y, ys⟩
      · exact absurd hlen (Nat.succ_ne_zero _)
      rw [hash_cons, hash_cons]
      obtain ⟨i, hi, huniq⟩ := h
      by_cases hxy : x = y
      · -- the first words agree, so the difference is further on
        subst hxy
        refine ih _ (Nat.succ.inj hlen) ?_
        rcases i with _ | i
        · exact absurd rfl hi
        · refine ⟨i, hi, fun j hj => ?_⟩
          exact Nat.succ.inj (huniq (j + 1) hj)
      · -- the first words differ, so the tails are the same and carry the difference
        have hzero : 0 = i := huniq 0 (by simpa using hxy)
        have htail : xs = ys := by
          refine List.ext_getElem? fun j => ?_
          by_contra hj
          have := huniq (j + 1) hj
          omega
        subst htail
        intro heq
        exact hxy (absorb_word_injective hp state (hash_injective hp xs heq))

/-! ## The low bits -/

theorem setWidth_absorb (hk : k ≤ w) (prime state word : BitVec w) :
    (absorb prime state word).setWidth k =
      absorb (prime.setWidth k) (state.setWidth k) (word.setWidth k) := by
  unfold absorb
  rw [BitVec.setWidth_mul _ _ hk, BitVec.setWidth_xor]

/-- The low bits of the hash are the hash of the low bits. -/
theorem setWidth_hash (hk : k ≤ w) (prime state : BitVec w) (words : List (BitVec w)) :
    (hash prime state words).setWidth k =
      hash (prime.setWidth k) (state.setWidth k) (words.map (BitVec.setWidth k)) := by
  induction words generalizing state with
  | nil => rfl
  | cons word words ih =>
      rw [hash_cons, ih, setWidth_absorb hk, List.map_cons, hash_cons]

theorem coprime_setWidth {prime : BitVec w} (hp : prime.toNat.Coprime 2) (k : ℕ) :
    (prime.setWidth k).toNat.Coprime (2 ^ k) := by
  have hgcd := (Nat.mod_modEq prime.toNat (2 ^ k)).gcd_eq
  rw [BitVec.toNat_setWidth, Nat.coprime_iff_gcd_eq_one, hgcd]
  exact hp.pow_right k

theorem toNat_mod_eq_iff {x : BitVec w} {r : ℕ} (hr : r < 2 ^ k) :
    x.toNat % 2 ^ k = r ↔ x.setWidth k = BitVec.ofNat k r := by
  rw [← BitVec.toNat_inj, BitVec.toNat_setWidth, BitVec.toNat_ofNat, Nat.mod_eq_of_lt hr]

/-- Each residue is taken `2 ^ (v - k)` times among the first `2 ^ v` numbers. -/
theorem count_ofNat_eq {v : ℕ} (hv : k ≤ v) (x : BitVec k) :
    Nat.count (fun n => BitVec.ofNat k n = x) (2 ^ v) = 2 ^ (v - k) := by
  have hiff : ∀ n, BitVec.ofNat k n = x ↔ n ≡ x.toNat [MOD 2 ^ k] := by
    intro n
    rw [← BitVec.toNat_inj, BitVec.toNat_ofNat, Nat.ModEq, Nat.mod_eq_of_lt x.isLt]
  have hdvd : 2 ^ v % 2 ^ k = 0 := Nat.mod_eq_zero_of_dvd (Nat.pow_dvd_pow 2 hv)
  simp only [hiff]
  rw [Nat.count_modEq_card _ (Nat.two_pow_pos k), hdvd, if_neg (Nat.not_lt_zero _),
    Nat.pow_div hv (by decide), Nat.add_zero]

/-- The word after `state` runs over `2 ^ v` values; the rest of the input is fixed. -/
theorem count_hash_mod {prime : BitVec w} (hp : prime.toNat.Coprime 2) (state : BitVec w)
    (words : List (BitVec w)) {v r : ℕ} (hw : k ≤ w) (hv : k ≤ v) (hr : r < 2 ^ k) :
    Nat.count (fun n => (hash prime state (BitVec.ofNat w n :: words)).toNat % 2 ^ k = r)
      (2 ^ v) = 2 ^ (v - k) := by
  -- on the low bits the varying word goes through a permutation
  let low (x : BitVec k) : BitVec k :=
    hash (prime.setWidth k) (state.setWidth k) (x :: words.map (BitVec.setWidth k))
  have hinj : Function.Injective low :=
    (hash_injective (coprime_setWidth hp k) _).comp
      (absorb_word_injective (coprime_setWidth hp k) _)
  have hfinite : Finite (BitVec k) :=
    Finite.of_injective BitVec.toFin fun _ _ => BitVec.eq_of_toFin_eq
  obtain ⟨x, hx⟩ := Finite.surjective_of_injective hinj (BitVec.ofNat k r)
  -- so the words with residue `r` are those with the low bits `x`
  have hiff : ∀ n, (hash prime state (BitVec.ofNat w n :: words)).toNat % 2 ^ k = r ↔
      BitVec.ofNat k n = x := by
    intro n
    rw [toNat_mod_eq_iff hr, setWidth_hash hw, List.map_cons, BitVec.setWidth_ofNat_of_le hw,
      ← hx]
    exact hinj.eq_iff
  simp only [hiff]
  exact count_ofNat_eq hv x

end Fnv
