import ReusePort.Core.Quic

/-!
# ReusePort.Core.QuicGrammar — what the QUIC router accepts

The router (`core/quic.rs`) reads untrusted bytes. Two of its reads are unchecked
indexing, `packet[0]` and `packet[start..end]`, which panic outside the packet; they
are kept as such in `Indexed`, next to the checked reads of `quicWorkerIndex`.

* `Indexed.quicWorkerIndex_eq` — no input makes the router panic;
* `ShortForm`, `LongForm` — the grammar by lengths;
* `quicDcid` — the DCID, in both header forms;
* `quicWorkerIndex_grammar` — acceptance, affinity to the DCID's first two bytes, and
  independence of what follows.
-/

namespace ReusePort

/-! ## Unchecked indexing -/

namespace Indexed

/-- Why indexing or arithmetic panics. -/
inductive Panic where
  | indexOutOfBounds
  | remainderByZero
deriving DecidableEq, Repr

/-- `slice[i]`. -/
def index (bytes : List UInt8) (i : ℕ) : Except Panic UInt8 :=
  match bytes[i]? with
  | some b => .ok b
  | none => .error .indexOutOfBounds

/-- `&slice[start..end]`. -/
def slice (bytes : List UInt8) (start stop : ℕ) : Except Panic (List UInt8) :=
  if start ≤ stop ∧ stop ≤ bytes.length then .ok (bytes.extract start stop)
  else .error .indexOutOfBounds

/-- `a % b`. -/
def rem (a b : ℕ) : Except Panic ℕ :=
  if b = 0 then .error .remainderByZero else .ok (a % b)

/-- `quic_long_header_dcid` with its slice. -/
def quicLongHeaderDcid (packet : List UInt8) : Except Panic (Option (List UInt8)) :=
  match packet[5]? with
  | none => .ok none
  | some len =>
      let dcidLen := len.toNat
      if dcidLen = 0 then .ok none
      else
        let start := 6
        let stop := start + dcidLen
        if stop > packet.length then .ok none
        else (slice packet start stop).map some

/-- The end of both branches of `quic_worker_index`: `Some(worker_index % workers)`,
unless the prefix is missing. -/
def routeBy (dcid : List UInt8) (workers : ℕ) : Except Panic (Option ℕ) :=
  match quicWorkerIndexPrefix dcid with
  | none => .ok none
  | some workerIndex => (rem workerIndex workers).map some

/-- `quic_worker_index` with its indexing. `packet.get(1..)` is `None` only for the
empty packet. -/
def quicWorkerIndex (packet : List UInt8) (workers : ℕ) : Except Panic (Option ℕ) := do
  if workers = 0 ∨ packet = [] then return none
  else
    let first ← index packet 0
    if first &&& 0x80 ≠ 0 then
      match ← quicLongHeaderDcid packet with
      | none => return none
      | some dcid => routeBy dcid workers
    else
      match packet with
      | [] => return none
      | _ :: rest => routeBy rest workers

theorem quicLongHeaderDcid_eq (packet : List UInt8) :
    quicLongHeaderDcid packet = .ok (ReusePort.quicLongHeaderDcid packet) := by
  unfold quicLongHeaderDcid ReusePort.quicLongHeaderDcid
  cases packet[5]? with
  | none => rfl
  | some len =>
      dsimp only [Option.pure_def, Option.bind_eq_bind, Option.bind_some]
      by_cases hzero : len.toNat = 0
      · simp [hzero]
      · by_cases hlong : 6 + len.toNat > packet.length
        · simp [hzero, hlong]
        · -- the slice is behind both checks
          have hin : 6 ≤ 6 + len.toNat ∧ 6 + len.toNat ≤ packet.length := by omega
          simp [hzero, hlong, slice, hin, Except.map]

theorem routeBy_eq {workers : ℕ} (hw : workers ≠ 0) (dcid : List UInt8) :
    routeBy dcid workers = .ok ((quicWorkerIndexPrefix dcid).map (· % workers)) := by
  unfold routeBy
  cases quicWorkerIndexPrefix dcid with
  | none => rfl
  | some workerIndex => simp [rem, hw, Except.map]

/-- No packet and no worker count make the router index out of bounds or divide by
zero; what it returns is what the checked reads give. -/
theorem quicWorkerIndex_eq (packet : List UInt8) (workers : ℕ) :
    quicWorkerIndex packet workers = .ok (ReusePort.quicWorkerIndex packet workers) := by
  by_cases hw : workers = 0
  · rw [quicWorkerIndex.eq_def, if_pos (Or.inl hw), ReusePort.quicWorkerIndex.eq_def, if_pos hw]
    rfl
  · cases packet with
    | nil =>
        rw [quicWorkerIndex.eq_def, if_pos (Or.inr rfl), ReusePort.quicWorkerIndex.eq_def,
          if_neg hw]
        rfl
    | cons first rest =>
        have hsome : ¬ (workers = 0 ∨ first :: rest = []) := by simp [hw]
        have hindex : index (first :: rest) 0 = .ok first := rfl
        rw [quicWorkerIndex.eq_def, if_neg hsome, hindex]
        by_cases hbit : first &&& 0x80 = 0
        · rw [quicWorkerIndex_short hw hbit, ← routeBy_eq hw]
          exact if_neg (not_not.mpr hbit)
        · rw [quicWorkerIndex_long hw hbit]
          refine (if_pos hbit).trans ?_
          rw [quicLongHeaderDcid_eq]
          cases ReusePort.quicLongHeaderDcid (first :: rest) with
          | none => rfl
          | some dcid => exact routeBy_eq hw dcid

end Indexed

/-! ## The grammar -/

/-- A short header with two bytes after the first. -/
def ShortForm (packet : List UInt8) : Prop :=
  ∃ b, packet[0]? = some b ∧ b &&& 0x80 = 0 ∧ 3 ≤ packet.length

/-- A long header with a length byte of at least two that fits. -/
def LongForm (packet : List UInt8) : Prop :=
  ∃ b len, packet[0]? = some b ∧ b &&& 0x80 ≠ 0 ∧ 6 ≤ packet.length ∧
    packet[5]? = some len ∧ 2 ≤ len.toNat ∧ 6 + len.toNat ≤ packet.length

theorem shortForm_iff {packet : List UInt8} (workers : ℕ) :
    ShortForm packet ↔ ∃ w, ShortRoute packet workers w := by
  constructor
  · rintro ⟨b, hb, hbit, hlen⟩
    match packet, hb, hlen with
    | x :: hi :: lo :: rest, hb, _ =>
        have hx : x = b := by simpa using hb
        exact ⟨_, x, hi, lo, rest, rfl, hx ▸ hbit, rfl⟩
  · rintro ⟨w, b, hi, lo, rest, rfl, hbit, -⟩
    exact ⟨b, rfl, hbit, by simp⟩

theorem longForm_iff {packet : List UInt8} (workers : ℕ) :
    LongForm packet ↔ ∃ w, LongRoute packet workers w := by
  constructor
  · rintro ⟨b, len, hb, hbit, -, hlen, htwo, hfit⟩
    have height : 8 ≤ packet.length := by omega
    match packet, hb, hlen, hfit, height with
    | x :: v₁ :: v₂ :: v₃ :: v₄ :: l :: hi :: lo :: rest, hb, hlen, hfit, _ =>
        have hx : x = b := by simpa using hb
        have hl : l = len := by simpa using hlen
        simp only [List.length_cons] at hfit
        exact ⟨_, x, v₁, v₂, v₃, v₄, l, hi, lo, rest, rfl, hx ▸ hbit, hl ▸ htwo,
          by rw [hl]; omega, rfl⟩
  · rintro ⟨w, b, v₁, v₂, v₃, v₄, len, hi, lo, rest, rfl, hbit, htwo, hfit, -⟩
    refine ⟨b, len, rfl, hbit, by simp, rfl, htwo, ?_⟩
    simp only [List.length_cons]
    omega

/-- The router accepts the two forms and nothing else. -/
theorem quicWorkerIndex_isSome_iff (packet : List UInt8) (workers : ℕ) :
    (quicWorkerIndex packet workers).isSome = true ↔
      1 ≤ workers ∧ (ShortForm packet ∨ LongForm packet) := by
  rw [Option.isSome_iff_exists, shortForm_iff workers, longForm_iff workers]
  constructor
  · rintro ⟨w, hw⟩
    obtain ⟨hpos, hroute⟩ := quicWorkerIndex_eq_some_iff.mp hw
    refine ⟨hpos, ?_⟩
    rcases hroute with hshort | hlong
    · exact Or.inl ⟨w, hshort⟩
    · exact Or.inr ⟨w, hlong⟩
  · rintro ⟨hpos, ⟨w, hshort⟩ | ⟨w, hlong⟩⟩
    · exact ⟨w, quicWorkerIndex_eq_some_iff.mpr ⟨hpos, Or.inl hshort⟩⟩
    · exact ⟨w, quicWorkerIndex_eq_some_iff.mpr ⟨hpos, Or.inr hlong⟩⟩

/-! ## Affinity -/

/-- The DCID of a packet. A short header has no length byte: its DCID begins after the
first byte, and its end is not in the packet. -/
def quicDcid (packet : List UInt8) : Option (List UInt8) :=
  match packet with
  | [] => none
  | first :: rest => if first &&& 0x80 ≠ 0 then quicLongHeaderDcid packet else some rest

/-- The route is made from the first two bytes of the DCID, and from nothing else. -/
theorem dcid_of_routed {packet : List UInt8} {workers w : ℕ}
    (h : quicWorkerIndex packet workers = some w) :
    ∃ hi lo, (quicDcid packet).map (List.take 2) = some [hi, lo] ∧
      w = (hi.toNat * 256 + lo.toNat) % workers := by
  obtain ⟨-, hshort | hlong⟩ := quicWorkerIndex_eq_some_iff.mp h
  · obtain ⟨b, hi, lo, rest, rfl, hbit, rfl⟩ := hshort
    refine ⟨hi, lo, ?_, rfl⟩
    simp [quicDcid, hbit]
  · obtain ⟨b, v₁, v₂, v₃, v₄, len, hi, lo, rest, rfl, hbit, htwo, hfit, rfl⟩ := hlong
    refine ⟨hi, lo, ?_, rfl⟩
    have hlen : ¬ (len.toNat = 0 ∨ (hi :: lo :: rest).length < len.toNat) := by
      simp only [List.length_cons]
      omega
    obtain ⟨k, hk⟩ : ∃ k, len.toNat = k + 2 := ⟨len.toNat - 2, by omega⟩
    rw [quicDcid, if_pos hbit, quicLongHeaderDcid_cons, if_neg hlen, hk]
    rfl

/-- What follows a routed packet does not change its route. -/
theorem quicWorkerIndex_append {packet : List UInt8} {workers w : ℕ}
    (h : quicWorkerIndex packet workers = some w) (extra : List UInt8) :
    quicWorkerIndex (packet ++ extra) workers = some w := by
  obtain ⟨hpos, hshort | hlong⟩ := quicWorkerIndex_eq_some_iff.mp h
  · obtain ⟨b, hi, lo, rest, rfl, hbit, rfl⟩ := hshort
    exact quicWorkerIndex_eq_some_iff.mpr
      ⟨hpos, Or.inl ⟨b, hi, lo, rest ++ extra, rfl, hbit, rfl⟩⟩
  · obtain ⟨b, v₁, v₂, v₃, v₄, len, hi, lo, rest, rfl, hbit, htwo, hfit, rfl⟩ := hlong
    refine quicWorkerIndex_eq_some_iff.mpr ⟨hpos, Or.inr
      ⟨b, v₁, v₂, v₃, v₄, len, hi, lo, rest ++ extra, rfl, hbit, htwo, ?_, rfl⟩⟩
    rw [List.length_append]
    omega

/-- The router accepts exactly its grammar, never panics, and is affine to the DCID's
first two bytes: two routed packets whose DCIDs begin alike, whatever their header
forms, versions, DCID lengths and trailing bytes, go to the same worker, which is one
of the workers; and bytes after a routed packet do not change its route. -/
theorem quicWorkerIndex_grammar (workers : ℕ) :
    (∀ packet, (quicWorkerIndex packet workers).isSome = true ↔
      1 ≤ workers ∧ (ShortForm packet ∨ LongForm packet)) ∧
    (∀ packet, Indexed.quicWorkerIndex packet workers = .ok (quicWorkerIndex packet workers)) ∧
    (∀ p q v w, quicWorkerIndex p workers = some v → quicWorkerIndex q workers = some w →
      (quicDcid p).map (List.take 2) = (quicDcid q).map (List.take 2) → v = w ∧ w < workers) ∧
    (∀ p extra w, quicWorkerIndex p workers = some w →
      quicWorkerIndex (p ++ extra) workers = some w) := by
  refine ⟨fun p => quicWorkerIndex_isSome_iff p workers,
    fun p => Indexed.quicWorkerIndex_eq p workers, ?_,
    fun p extra w h => quicWorkerIndex_append h extra⟩
  intro p q v w hp hq hdcid
  obtain ⟨hi, lo, hpd, hv⟩ := dcid_of_routed hp
  obtain ⟨hi', lo', hqd, hw⟩ := dcid_of_routed hq
  rw [hpd, hqd] at hdcid
  cases hdcid
  exact ⟨hv.trans hw.symm, quicWorkerIndex_lt hq⟩

/-- A long and a short header with the DCID prefix `0x0103`, among four workers. -/
theorem quicWorkerIndex_grammar_forms :
    quicWorkerIndex [0xe0, 0, 0, 0, 1, 4, 0x01, 0x03, 9, 9] 4 = some 3 ∧
      quicWorkerIndex [0x40, 0x01, 0x03, 2, 3] 4 = some 3 ∧
      quicWorkerIndex ([0x40, 0x01, 0x03, 2, 3] ++ [7]) 4 = some 3 ∧ 3 < 4 := by
  have hlong : quicWorkerIndex [0xe0, 0, 0, 0, 1, 4, 0x01, 0x03, 9, 9] 4 = some 3 := by decide
  have hshort : quicWorkerIndex [0x40, 0x01, 0x03, 2, 3] 4 = some 3 := by decide
  obtain ⟨-, -, haffine, happend⟩ := quicWorkerIndex_grammar 4
  exact ⟨hlong, hshort, happend _ [7] 3 hshort, (haffine _ _ 3 3 hlong hshort (by decide)).2⟩

end ReusePort
