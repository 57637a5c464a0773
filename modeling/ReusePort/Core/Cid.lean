import ReusePort.Core.Quic

/-!
# ReusePort.Core.Cid — the QUIC CID generator

`QuicCidGenerator` (`core/cid.rs`) draws random bytes and then overwrites the
first two with the worker index. The random source is outside the crate: one
call of `getrandom::fill` either fails or writes bytes of its own choosing, and
`FillOutcome` ranges over these outcomes.

* `Built.wf` — a generator obtained through the public constructors has an
  index of 16 bits and a CID length in `8..=20`;
* `generate_spec` — what `generate` returns, for every outcome;
* `generate_routes_home` — every CID that it returns routes back to the worker
  it was generated for, in both header forms.
-/

namespace ReusePort

/-- `QuicCidGenerator`. -/
structure QuicCidGenerator where
  workerIndex : ℕ
  cidLen : ℕ
deriving DecidableEq, Repr

/-- What one call of `getrandom::fill` does: it fails with an error, or it
writes `bytes i` at every position `i` of the buffer. -/
inductive FillOutcome where
  | failed (error : String)
  | wrote (bytes : ℕ → UInt8)

/-- `getrandom::fill(buffer)`, as the buffer it leaves behind. -/
def FillOutcome.fill (outcome : FillOutcome) (buffer : List UInt8) :
    Except String (List UInt8) :=
  match outcome with
  | .failed error => .error error
  | .wrote bytes => .ok (buffer.mapIdx fun i _ => bytes i)

namespace QuicCidGenerator

def defaultCidLen : ℕ := 8
def minCidLen : ℕ := 8
def maxCidLen : ℕ := 20
def maxWorkerIndex : ℕ := 0xffff

/-- `validate_worker_index`. -/
def validateWorkerIndex (workerIndex : ℕ) : Except Error Unit :=
  if workerIndex ≤ maxWorkerIndex then .ok ()
  else .error (.invalidConfig s!"QUIC CID worker index must be between 0 and {maxWorkerIndex}")

/-- `validate_cid_len`. -/
def validateCidLen (cidLen : ℕ) : Except Error Unit :=
  if minCidLen ≤ cidLen ∧ cidLen ≤ maxCidLen then .ok ()
  else .error (.invalidConfig
    s!"QUIC CID length must be between {minCidLen} and {maxCidLen} bytes")

/-- `QuicCidGenerator::new`. -/
def new (workerIndex : ℕ) : Except Error QuicCidGenerator := do
  validateWorkerIndex workerIndex
  return { workerIndex, cidLen := defaultCidLen }

/-- `QuicCidGenerator::for_worker`. -/
def forWorker (workerIndex : ℕ) : Except Error QuicCidGenerator :=
  new workerIndex

/-- `QuicCidGenerator::with_cid_len`. -/
def withCidLen (g : QuicCidGenerator) (cidLen : ℕ) : Except Error QuicCidGenerator := do
  validateCidLen cidLen
  return { g with cidLen }

/-- `encode_worker_index_prefix`, as the buffer it leaves behind. -/
def encodeWorkerIndexPrefix (workerIndex : ℕ) (buffer : List UInt8) :
    Except Error (List UInt8) := do
  validateWorkerIndex workerIndex
  if buffer.length < 2 then
    throw (.invalidConfig "QUIC CID buffer must contain a two-byte worker index prefix")
  return (buffer.set 0 (UInt8.ofNat (workerIndex >>> 8))).set 1 (UInt8.ofNat workerIndex)

/-- `QuicCidGenerator::generate_into`, as the buffer it leaves behind. -/
def generateInto (g : QuicCidGenerator) (outcome : FillOutcome) (buffer : List UInt8) :
    Except Error (List UInt8) := do
  if buffer.length ≠ g.cidLen then
    throw (.invalidConfig
      s!"QUIC CID buffer length must equal configured CID length {g.cidLen}")
  validateCidLen buffer.length
  let buffer ← (outcome.fill buffer).mapError fun error =>
    .runtime s!"QUIC CID random generation failed: {error}"
  encodeWorkerIndexPrefix g.workerIndex buffer

/-- `QuicCidGenerator::generate`. -/
def generate (g : QuicCidGenerator) (outcome : FillOutcome) : Except Error (List UInt8) :=
  g.generateInto outcome (List.replicate g.cidLen 0)

/-! ## Generators built through the public interface -/

/-- The generators that some chain of successful `new`, `for_worker` and
`with_cid_len` calls returns. -/
inductive Built : QuicCidGenerator → Prop where
  | new {i : ℕ} {g : QuicCidGenerator} (h : QuicCidGenerator.new i = .ok g) : Built g
  | forWorker {i : ℕ} {g : QuicCidGenerator} (h : QuicCidGenerator.forWorker i = .ok g) : Built g
  | withCidLen {n : ℕ} {g g' : QuicCidGenerator} (hg : Built g) (h : g.withCidLen n = .ok g') :
      Built g'

theorem validateWorkerIndex_eq_ok {i : ℕ} :
    validateWorkerIndex i = .ok () ↔ i ≤ maxWorkerIndex := by
  unfold validateWorkerIndex
  split <;> simp_all

theorem validateCidLen_eq_ok {n : ℕ} :
    validateCidLen n = .ok () ↔ minCidLen ≤ n ∧ n ≤ maxCidLen := by
  unfold validateCidLen
  split <;> simp_all

theorem new_eq_ok {i : ℕ} {g : QuicCidGenerator} (h : QuicCidGenerator.new i = .ok g) :
    i ≤ maxWorkerIndex ∧ g = ⟨i, defaultCidLen⟩ := by
  cases hv : validateWorkerIndex i with
  | error e =>
      rw [QuicCidGenerator.new, hv] at h
      cases h
  | ok _ =>
      rw [QuicCidGenerator.new, hv] at h
      cases h
      exact ⟨validateWorkerIndex_eq_ok.mp hv, rfl⟩

theorem withCidLen_eq_ok {n : ℕ} {g g' : QuicCidGenerator} (h : g.withCidLen n = .ok g') :
    (minCidLen ≤ n ∧ n ≤ maxCidLen) ∧ g' = { g with cidLen := n } := by
  cases hv : validateCidLen n with
  | error e =>
      rw [QuicCidGenerator.withCidLen, hv] at h
      cases h
  | ok _ =>
      rw [QuicCidGenerator.withCidLen, hv] at h
      cases h
      exact ⟨validateCidLen_eq_ok.mp hv, rfl⟩

theorem defaultCidLen_valid : minCidLen ≤ defaultCidLen ∧ defaultCidLen ≤ maxCidLen := by
  decide

/-- Every built generator passes both validations again. -/
theorem Built.wf {g : QuicCidGenerator} (hg : Built g) :
    g.workerIndex ≤ maxWorkerIndex ∧ minCidLen ≤ g.cidLen ∧ g.cidLen ≤ maxCidLen := by
  induction hg with
  | new h =>
      rcases new_eq_ok h with ⟨hi, rfl⟩
      exact ⟨hi, defaultCidLen_valid⟩
  | forWorker h =>
      rcases new_eq_ok h with ⟨hi, rfl⟩
      exact ⟨hi, defaultCidLen_valid⟩
  | withCidLen _ h ih =>
      rcases withCidLen_eq_ok h with ⟨hlen, rfl⟩
      exact ⟨ih.1, hlen⟩

/-! ## What `generate` returns -/

theorem encodeWorkerIndexPrefix_cons {i : ℕ} (hi : i ≤ maxWorkerIndex) (b₀ b₁ : UInt8)
    (rest : List UInt8) :
    encodeWorkerIndexPrefix i (b₀ :: b₁ :: rest) =
      .ok (UInt8.ofNat (i >>> 8) :: UInt8.ofNat i :: rest) := by
  have hlen : ¬ (b₀ :: b₁ :: rest).length < 2 := by
    simp only [List.length_cons]
    omega
  simp only [encodeWorkerIndexPrefix, validateWorkerIndex_eq_ok.mpr hi, if_neg hlen]
  rfl

/-- `generate` fails exactly with the random source; otherwise it returns
`cid_len` bytes that begin with the worker index, big-endian. -/
theorem generate_spec {g : QuicCidGenerator} (hg : Built g) (outcome : FillOutcome) :
    (∀ error, outcome = .failed error →
      g.generate outcome = .error (.runtime s!"QUIC CID random generation failed: {error}")) ∧
    (∀ bytes, outcome = .wrote bytes → ∃ suffix,
      g.generate outcome =
        .ok (UInt8.ofNat (g.workerIndex >>> 8) :: UInt8.ofNat g.workerIndex :: suffix) ∧
      suffix.length + 2 = g.cidLen) := by
  rcases hg.wf with ⟨hindex, hmin, hmax⟩
  have hvalid : validateCidLen g.cidLen = .ok () := validateCidLen_eq_ok.mpr ⟨hmin, hmax⟩
  have hgen : g.generate outcome =
      ((outcome.fill (List.replicate g.cidLen 0)).mapError fun error =>
        Error.runtime s!"QUIC CID random generation failed: {error}") >>=
          encodeWorkerIndexPrefix g.workerIndex := by
    simp only [generate, generateInto, List.length_replicate, ne_eq, not_true_eq_false, if_false,
      hvalid]
    rfl
  constructor
  · rintro error rfl
    rw [hgen]
    rfl
  · rintro bytes rfl
    -- the CID has at least eight bytes, so the prefix overwrites two of them
    obtain ⟨k, hk⟩ : ∃ k, g.cidLen = k + 2 := ⟨g.cidLen - 2, by simp [minCidLen] at hmin; omega⟩
    have hfill : (FillOutcome.wrote bytes).fill (List.replicate g.cidLen 0) =
        .ok (bytes 0 :: bytes 1 ::
          (List.replicate k (0 : UInt8)).mapIdx fun i _ => bytes (i + 1 + 1)) := by
      simp only [FillOutcome.fill, hk, List.replicate_succ, List.mapIdx_cons]
    refine ⟨(List.replicate k (0 : UInt8)).mapIdx fun i _ => bytes (i + 1 + 1), ?_, ?_⟩
    · rw [hgen, hfill]
      exact encodeWorkerIndexPrefix_cons hindex _ _ _
    · simp [hk]

/-- The two prefix bytes give the index back: it has at most 16 bits. -/
theorem prefix_toNat {i : ℕ} (hi : i ≤ maxWorkerIndex) :
    (UInt8.ofNat (i >>> 8)).toNat * 256 + (UInt8.ofNat i).toNat = i := by
  have hlt : i < 65536 := by
    simp only [maxWorkerIndex] at hi
    omega
  simp only [UInt8.toNat_ofNat', Nat.shiftRight_eq_div_pow]
  omega

/-! ## The round trip -/

/-- The packets that carry a destination CID: a short header, whose first byte
has bit 7 clear, or a long header with four version bytes and a length byte.
Anything may follow the CID. -/
inductive CarriesCid (cid : List UInt8) : List UInt8 → Prop where
  | short (first : UInt8) (tail : List UInt8) (hbit : first &&& 0x80 = 0) :
      CarriesCid cid (first :: (cid ++ tail))
  | long (first v₁ v₂ v₃ v₄ len : UInt8) (tail : List UInt8) (hbit : first &&& 0x80 ≠ 0)
      (hlen : len.toNat = cid.length) :
      CarriesCid cid (first :: v₁ :: v₂ :: v₃ :: v₄ :: len :: (cid ++ tail))

/-- A packet whose CID begins with the bytes `hi`, `lo` goes to their index. -/
theorem quicWorkerIndex_of_carriesCid {hi lo : UInt8} {suffix packet : List UInt8} {workers : ℕ}
    (hworkers : 1 ≤ workers) (hpacket : CarriesCid (hi :: lo :: suffix) packet) :
    quicWorkerIndex packet workers = some ((hi.toNat * 256 + lo.toNat) % workers) := by
  rw [quicWorkerIndex_eq_some_iff]
  refine ⟨hworkers, ?_⟩
  cases hpacket with
  | short first tail hbit =>
      exact Or.inl ⟨first, hi, lo, suffix ++ tail, rfl, hbit, rfl⟩
  | long first v₁ v₂ v₃ v₄ len tail hbit hlen =>
      simp only [List.length_cons] at hlen
      refine Or.inr ⟨first, v₁, v₂, v₃, v₄, len, hi, lo, suffix ++ tail, rfl, hbit, ?_, ?_, rfl⟩
      · omega
      · simp only [List.length_append]
        omega

/-- The CID round trip. Whatever the random source does: if it fails, `generate`
returns an error; if it writes bytes, `generate` returns a CID, of length
`cid_len` in `8..=20`, and every short- or long-header packet that carries it is
routed to `worker_index % workers`, for every worker count. -/
theorem generate_routes_home {g : QuicCidGenerator} (hg : Built g) (outcome : FillOutcome) :
    (∀ error, outcome = .failed error → ∃ e, g.generate outcome = .error e) ∧
    (∀ bytes, outcome = .wrote bytes → ∃ cid, g.generate outcome = .ok cid) ∧
    ∀ cid, g.generate outcome = .ok cid →
      cid.length = g.cidLen ∧ 8 ≤ g.cidLen ∧ g.cidLen ≤ 20 ∧
      ∀ workers, 1 ≤ workers → ∀ packet, CarriesCid cid packet →
        quicWorkerIndex packet workers = some (g.workerIndex % workers) ∧
        (g.workerIndex < workers → quicWorkerIndex packet workers = some g.workerIndex) := by
  rcases generate_spec hg outcome with ⟨hfailed, hwrote⟩
  refine ⟨fun error h => ⟨_, hfailed error h⟩, fun bytes h => ?_, ?_⟩
  · rcases hwrote bytes h with ⟨suffix, hok, -⟩
    exact ⟨_, hok⟩
  · intro cid hcid
    cases outcome with
    | failed error =>
        rw [hfailed error rfl] at hcid
        cases hcid
    | wrote bytes =>
        rcases hwrote bytes rfl with ⟨suffix, hok, hlen⟩
        rw [hok] at hcid
        cases hcid
        rcases hg.wf with ⟨hindex, hmin, hmax⟩
        refine ⟨by simpa using hlen, hmin, hmax, ?_⟩
        intro workers hworkers packet hpacket
        have hroute : quicWorkerIndex packet workers = some (g.workerIndex % workers) := by
          rw [quicWorkerIndex_of_carriesCid hworkers hpacket, prefix_toNat hindex]
        refine ⟨hroute, fun hlt => ?_⟩
        rw [hroute, Nat.mod_eq_of_lt hlt]

/-- Worker 259 of 300 with nine-byte CIDs, and a source that writes `0xff`
everywhere: the long-header packet goes back to worker 259. -/
theorem generate_routes_home_259 :
    (⟨259, 9⟩ : QuicCidGenerator).generate (.wrote fun _ => 0xff) =
        .ok [1, 3, 0xff, 0xff, 0xff, 0xff, 0xff, 0xff, 0xff] ∧
      quicWorkerIndex ([0xe0, 0, 0, 0, 1, 9] ++
        [1, 3, 0xff, 0xff, 0xff, 0xff, 0xff, 0xff, 0xff] ++ [7]) 300 = some 259 := by
  have hbuilt : Built ⟨259, 9⟩ := .withCidLen (n := 9) (.new (i := 259) rfl) rfl
  have hgen : (⟨259, 9⟩ : QuicCidGenerator).generate (.wrote fun _ => 0xff) =
      .ok [1, 3, 0xff, 0xff, 0xff, 0xff, 0xff, 0xff, 0xff] := rfl
  have hroute := (generate_routes_home hbuilt (.wrote fun _ => 0xff)).2.2 _ hgen
  exact ⟨hgen, (hroute.2.2.2 300 (by decide) _
    (.long 0xe0 0 0 0 1 9 [7] (by decide) rfl)).2 (by decide)⟩

end QuicCidGenerator

end ReusePort
