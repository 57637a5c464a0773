import Mathlib.Data.Nat.Digits.Lemmas

/-!
# ReusePort.Endian — fixed-width numbers in memory

A number of a fixed width is kept in memory as that many bytes, lowest byte
first or highest byte first.

* `value_bytes`, `bytes_value` — writing and reading are inverse to each other.
-/

/-- A byte order. -/
inductive Endian where
  | little
  | big
deriving DecidableEq, Repr

namespace Endian

/-- The lowest `width` bytes of `x`, lowest byte first. -/
def leBytes : ℕ → ℕ → List UInt8
  | 0, _ => []
  | width + 1, x => UInt8.ofNat x :: leBytes width (x / 256)

/-- The number whose bytes, lowest first, are these. -/
def leValue (bytes : List UInt8) : ℕ :=
  Nat.ofDigits 256 (bytes.map UInt8.toNat)

/-- The bytes of `x` in memory. -/
def bytes (e : Endian) (width x : ℕ) : List UInt8 :=
  match e with
  | little => leBytes width x
  | big => (leBytes width x).reverse

/-- The number that is in memory as these bytes. -/
def value (e : Endian) (bytes : List UInt8) : ℕ :=
  match e with
  | little => leValue bytes
  | big => leValue bytes.reverse

theorem length_leBytes (width x : ℕ) : (leBytes width x).length = width := by
  induction width generalizing x with
  | zero => rfl
  | succ width ih => rw [leBytes, List.length_cons, ih]

@[simp] theorem length_bytes (e : Endian) (width x : ℕ) : (e.bytes width x).length = width := by
  cases e with
  | little => exact length_leBytes width x
  | big => rw [bytes, List.length_reverse, length_leBytes]

theorem leValue_cons (b : UInt8) (bs : List UInt8) :
    leValue (b :: bs) = b.toNat + 256 * leValue bs :=
  Nat.ofDigits_cons

theorem leValue_leBytes {width x : ℕ} (h : x < 256 ^ width) : leValue (leBytes width x) = x := by
  induction width generalizing x with
  | zero =>
      rw [Nat.pow_zero] at h
      have hzero : x = 0 := by omega
      rw [hzero]
      rfl
  | succ width ih =>
      have hdiv : x / 256 < 256 ^ width := Nat.div_lt_of_lt_mul (by rwa [Nat.pow_succ'] at h)
      rw [leBytes, leValue_cons, ih hdiv, UInt8.toNat_ofNat']
      omega

theorem leBytes_leValue (bs : List UInt8) : leBytes bs.length (leValue bs) = bs := by
  induction bs with
  | nil => rfl
  | cons b bs ih =>
      have hb := b.toNat_lt
      have hlow : UInt8.ofNat (b.toNat + 256 * leValue bs) = b := by
        apply UInt8.toNat_inj.mp
        rw [UInt8.toNat_ofNat']
        omega
      have hhigh : (b.toNat + 256 * leValue bs) / 256 = leValue bs := by omega
      rw [List.length_cons, leBytes, leValue_cons, hlow, hhigh, ih]

theorem leValue_lt (bs : List UInt8) : leValue bs < 256 ^ bs.length := by
  have hdigits : ∀ d ∈ bs.map UInt8.toNat, d < 256 := by
    intro d hd
    obtain ⟨b, -, rfl⟩ := List.mem_map.mp hd
    exact b.toNat_lt
  have hlt := Nat.ofDigits_lt_base_pow_length (by decide) hdigits
  rwa [List.length_map] at hlt

theorem value_lt (e : Endian) (bs : List UInt8) : e.value bs < 256 ^ bs.length := by
  cases e with
  | little => exact leValue_lt bs
  | big =>
      have hlt := leValue_lt bs.reverse
      rwa [List.length_reverse] at hlt

/-- A number that fits is read back. -/
theorem value_bytes (e : Endian) {width x : ℕ} (h : x < 256 ^ width) :
    e.value (e.bytes width x) = x := by
  cases e with
  | little => exact leValue_leBytes h
  | big => rw [value, bytes, List.reverse_reverse, leValue_leBytes h]

/-- Bytes that are read as a number are written back. -/
theorem bytes_value (e : Endian) (bs : List UInt8) : e.bytes bs.length (e.value bs) = bs := by
  cases e with
  | little => exact leBytes_leValue bs
  | big =>
      rw [value, bytes, ← List.length_reverse, leBytes_leValue, List.reverse_reverse]

end Endian
