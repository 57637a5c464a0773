import ReusePort.Core.Net

/-!
# ReusePort.Core.Quic — the userspace QUIC router

`quicWorkerIndex` (`core/quic.rs`) reads the two-byte worker index prefix of a
packet's destination CID. The packet comes from the network, so every byte it
looks at may be missing.

* `quicWorkerIndex_eq_some_iff` — the router's grammar: the packets it accepts
  and the worker it answers, in one statement;
* `quicWorkerIndex_lt` — the answer is a worker.
-/

namespace ReusePort

/-! ## The router -/

/-- `quic_worker_index_prefix`. -/
def quicWorkerIndexPrefix (bytes : List UInt8) : Option ℕ := do
  let first ← bytes.head?
  let second ← bytes[1]?
  return (first.toNat <<< 8) ||| second.toNat

/-- `quic_long_header_dcid`. -/
def quicLongHeaderDcid (packet : List UInt8) : Option (List UInt8) := do
  let dcidLen := (← packet[5]?).toNat
  if dcidLen = 0 then none
  else
    let start := 6
    let stop := start + dcidLen
    if stop > packet.length then none else return packet.extract start stop

/-- `quic_worker_index`. -/
def quicWorkerIndex (packet : List UInt8) (workers : ℕ) : Option ℕ :=
  if workers = 0 then none
  else match packet with
    | [] => none
    | first :: rest =>
        if first &&& 0x80 ≠ 0 then do
          let dcid ← quicLongHeaderDcid packet
          let workerIndex ← quicWorkerIndexPrefix dcid
          return workerIndex % workers
        else do
          let workerIndex ← quicWorkerIndexPrefix rest
          return workerIndex % workers

/-- `quic_reuseport_bpf_accepts_packet`. -/
def quicReuseportBpfAcceptsPacket (packet : List UInt8) (workers : ℕ) : Bool :=
  (quicWorkerIndex packet workers).isSome

/-! ## The router's grammar -/

/-- The two prefix bytes as a big-endian number. -/
theorem shiftLeft_or_toNat (hi lo : UInt8) :
    (hi.toNat <<< 8) ||| lo.toNat = hi.toNat * 256 + lo.toNat := by
  have hlo : lo.toNat < 2 ^ 8 := lo.toNat_lt
  rw [← Nat.shiftLeft_add_eq_or_of_lt hlo, Nat.shiftLeft_eq]

theorem quicWorkerIndexPrefix_eq_some_iff {bytes : List UInt8} {i : ℕ} :
    quicWorkerIndexPrefix bytes = some i ↔
      ∃ hi lo rest, bytes = hi :: lo :: rest ∧ i = hi.toNat * 256 + lo.toNat := by
  match bytes with
  | [] => simp [quicWorkerIndexPrefix]
  | [_] => simp [quicWorkerIndexPrefix]
  | hi :: lo :: rest =>
      simp only [quicWorkerIndexPrefix, List.head?_cons, Option.pure_def, Option.bind_eq_bind,
        Option.bind_some, List.getElem?_cons_succ, List.getElem?_cons_zero, Option.some.injEq,
        shiftLeft_or_toNat]
      constructor
      · rintro rfl
        exact ⟨hi, lo, rest, rfl, rfl⟩
      · rintro ⟨hi', lo', rest', hbytes, rfl⟩
        cases hbytes
        rfl

/-- A packet with at least the six fixed bytes of a long header. -/
theorem quicLongHeaderDcid_cons (b v₁ v₂ v₃ v₄ len : UInt8) (rest : List UInt8) :
    quicLongHeaderDcid (b :: v₁ :: v₂ :: v₃ :: v₄ :: len :: rest) =
      if len.toNat = 0 ∨ rest.length < len.toNat then none else some (rest.take len.toNat) := by
  simp only [quicLongHeaderDcid, List.getElem?_cons_succ, List.getElem?_cons_zero,
    Option.pure_def, Option.bind_eq_bind, Option.bind_some, List.length_cons, List.extract]
  by_cases hzero : len.toNat = 0
  · simp [hzero]
  · by_cases hshort : rest.length < len.toNat
    · have hlong : 6 + len.toNat > rest.length + 1 + 1 + 1 + 1 + 1 + 1 := by omega
      simp [hzero, hshort, hlong]
    · have hlong : ¬ 6 + len.toNat > rest.length + 1 + 1 + 1 + 1 + 1 + 1 := by omega
      simp [hzero, hshort, hlong]

/-- A packet too short for the length byte has no DCID. -/
theorem quicLongHeaderDcid_short {packet : List UInt8} (h : packet.length < 6) :
    quicLongHeaderDcid packet = none := by
  have hnone : packet[5]? = none := List.getElem?_eq_none (by omega)
  simp [quicLongHeaderDcid, hnone]

/-- The short-header packets that the router sends to worker `w` of `workers`. -/
def ShortRoute (packet : List UInt8) (workers w : ℕ) : Prop :=
  ∃ b hi lo rest, packet = b :: hi :: lo :: rest ∧ b &&& 0x80 = 0 ∧
    w = (hi.toNat * 256 + lo.toNat) % workers

/-- The long-header packets that the router sends to worker `w` of `workers`:
a length byte of at least two, and a payload that holds the whole DCID. -/
def LongRoute (packet : List UInt8) (workers w : ℕ) : Prop :=
  ∃ b v₁ v₂ v₃ v₄ len hi lo rest,
    packet = b :: v₁ :: v₂ :: v₃ :: v₄ :: len :: hi :: lo :: rest ∧ b &&& 0x80 ≠ 0 ∧
      2 ≤ len.toNat ∧ len.toNat ≤ rest.length + 2 ∧
      w = (hi.toNat * 256 + lo.toNat) % workers

/-- What begins with two bytes after a cut began with them before. -/
theorem exists_of_take_eq {tail rest : List UInt8} {n : ℕ} {hi lo : UInt8}
    (h : tail.take n = hi :: lo :: rest) : 2 ≤ n ∧ ∃ more, tail = hi :: lo :: more := by
  have hlen := congrArg List.length h
  simp only [List.length_take, List.length_cons] at hlen
  obtain ⟨k, rfl⟩ : ∃ k, n = k + 2 := ⟨n - 2, by omega⟩
  match tail, h with
  | x :: y :: more, h =>
      rw [List.take_succ_cons, List.take_succ_cons] at h
      cases h
      exact ⟨Nat.le_add_left 2 k, more, rfl⟩
  | [_], h => simp at h

/-- The DCID of a long header yields a prefix exactly when it has two bytes. -/
theorem longHeader_prefix_eq_some_iff {packet : List UInt8} {i : ℕ} :
    (quicLongHeaderDcid packet).bind quicWorkerIndexPrefix = some i ↔
      ∃ b v₁ v₂ v₃ v₄ len hi lo rest,
        packet = b :: v₁ :: v₂ :: v₃ :: v₄ :: len :: hi :: lo :: rest ∧
          2 ≤ len.toNat ∧ len.toNat ≤ rest.length + 2 ∧ i = hi.toNat * 256 + lo.toNat := by
  constructor
  · intro h
    match packet, h with
    | b :: v₁ :: v₂ :: v₃ :: v₄ :: len :: tail, h =>
        rw [quicLongHeaderDcid_cons] at h
        split at h
        · simp at h
        · rename_i hlen
          rw [not_or, Nat.not_lt] at hlen
          rw [Option.bind_some, quicWorkerIndexPrefix_eq_some_iff] at h
          rcases h with ⟨hi, lo, rest, htake, hi_eq⟩
          obtain ⟨htwo, more, rfl⟩ := exists_of_take_eq htake
          refine ⟨b, v₁, v₂, v₃, v₄, len, hi, lo, more, rfl, htwo, ?_, hi_eq⟩
          simpa only [List.length_cons] using hlen.2
    | [], h => simp [quicLongHeaderDcid_short] at h
    | [_], h => simp [quicLongHeaderDcid_short] at h
    | [_, _], h => simp [quicLongHeaderDcid_short] at h
    | [_, _, _], h => simp [quicLongHeaderDcid_short] at h
    | [_, _, _, _], h => simp [quicLongHeaderDcid_short] at h
    | [_, _, _, _, _], h => simp [quicLongHeaderDcid_short] at h
  · rintro ⟨b, v₁, v₂, v₃, v₄, len, hi, lo, rest, rfl, htwo, hfit, rfl⟩
    have hlen : ¬ (len.toNat = 0 ∨ (hi :: lo :: rest).length < len.toNat) := by
      simp only [List.length_cons]
      omega
    obtain ⟨k, hk⟩ : ∃ k, len.toNat = k + 2 := ⟨len.toNat - 2, by omega⟩
    rw [quicLongHeaderDcid_cons, if_neg hlen, Option.bind_some,
      quicWorkerIndexPrefix_eq_some_iff, hk]
    exact ⟨hi, lo, rest.take k, rfl, rfl⟩

/-- On a short header the prefix stands right after the first byte. -/
theorem quicWorkerIndex_short {workers : ℕ} (hw : workers ≠ 0) {b : UInt8} {rest : List UInt8}
    (hbit : b &&& 0x80 = 0) :
    quicWorkerIndex (b :: rest) workers = (quicWorkerIndexPrefix rest).map (· % workers) := by
  have hnot : ¬ b &&& 0x80 ≠ 0 := not_not.mpr hbit
  rw [quicWorkerIndex, if_neg hw, if_neg hnot]
  cases quicWorkerIndexPrefix rest <;> rfl

/-- On a long header it stands at the beginning of the DCID. -/
theorem quicWorkerIndex_long {workers : ℕ} (hw : workers ≠ 0) {b : UInt8} {rest : List UInt8}
    (hbit : b &&& 0x80 ≠ 0) :
    quicWorkerIndex (b :: rest) workers =
      ((quicLongHeaderDcid (b :: rest)).bind quicWorkerIndexPrefix).map (· % workers) := by
  rw [quicWorkerIndex, if_neg hw, if_pos hbit]
  cases quicLongHeaderDcid (b :: rest) with
  | none => rfl
  | some dcid => cases hdcid : quicWorkerIndexPrefix dcid <;> simp [hdcid]

/-- The router accepts exactly its grammar: every accepted packet is a short
header with two DCID bytes or a long header that holds its DCID, and the answer
is the two-byte prefix modulo the worker count. -/
theorem quicWorkerIndex_eq_some_iff {packet : List UInt8} {workers w : ℕ} :
    quicWorkerIndex packet workers = some w ↔
      0 < workers ∧ (ShortRoute packet workers w ∨ LongRoute packet workers w) := by
  rcases Nat.eq_zero_or_pos workers with rfl | hpos
  · simp [quicWorkerIndex]
  have hne : workers ≠ 0 := by omega
  match packet with
  | [] => simp [quicWorkerIndex, ShortRoute, LongRoute]
  | first :: rest =>
      by_cases hbit : first &&& 0x80 = 0
      · have hlong : ¬ LongRoute (first :: rest) workers w := by
          rintro ⟨b, v₁, v₂, v₃, v₄, len, hi, lo, tl, hp, hb, -⟩
          cases hp
          exact hb hbit
        rw [quicWorkerIndex_short hne hbit, Option.map_eq_some_iff]
        simp only [quicWorkerIndexPrefix_eq_some_iff, hlong, or_false, hpos, true_and]
        constructor
        · rintro ⟨i, ⟨hi, lo, tl, rfl, rfl⟩, rfl⟩
          exact ⟨first, hi, lo, tl, rfl, hbit, rfl⟩
        · rintro ⟨b, hi, lo, tl, hp, -, rfl⟩
          cases hp
          exact ⟨_, ⟨hi, lo, tl, rfl, rfl⟩, rfl⟩
      · have hshort : ¬ ShortRoute (first :: rest) workers w := by
          rintro ⟨b, hi, lo, tl, hp, hb, -⟩
          cases hp
          exact hbit hb
        rw [quicWorkerIndex_long hne hbit, Option.map_eq_some_iff]
        simp only [longHeader_prefix_eq_some_iff, hpos, true_and, hshort, false_or]
        constructor
        · rintro ⟨i, ⟨b, v₁, v₂, v₃, v₄, len, hi, lo, tl, hp, htwo, hfit, rfl⟩, rfl⟩
          have hb : b = first := by
            cases hp
            rfl
          exact ⟨b, v₁, v₂, v₃, v₄, len, hi, lo, tl, hp, hb ▸ hbit, htwo, hfit, rfl⟩
        · rintro ⟨b, v₁, v₂, v₃, v₄, len, hi, lo, tl, hp, -, htwo, hfit, rfl⟩
          exact ⟨_, ⟨b, v₁, v₂, v₃, v₄, len, hi, lo, tl, hp, htwo, hfit, rfl⟩, rfl⟩

/-- A routed packet goes to one of the workers. -/
theorem quicWorkerIndex_lt {packet : List UInt8} {workers w : ℕ}
    (h : quicWorkerIndex packet workers = some w) : w < workers := by
  rcases quicWorkerIndex_eq_some_iff.mp h with ⟨hpos, hshort | hlong⟩
  · rcases hshort with ⟨_, _, _, _, _, _, rfl⟩
    exact Nat.mod_lt _ hpos
  · rcases hlong with ⟨_, _, _, _, _, _, _, _, _, _, _, _, _, rfl⟩
    exact Nat.mod_lt _ hpos

end ReusePort
