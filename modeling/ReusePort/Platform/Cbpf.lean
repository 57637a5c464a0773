import ReusePort.Bpf.Classic
import ReusePort.Core.Quic

/-!
# ReusePort.Platform.Cbpf — the classic BPF reuse-port selector

`quicReuseportCbpf` (`platform/linux.rs`) is the program that the kernel runs on
every datagram of the reuse-port group; its result is the index of the socket,
hence of the worker, that receives the datagram. The worker's own loop then
filters with `quic_reuseport_bpf_accepts_packet`. The program has no check of
the DCID length, so on packets that the userspace router rejects it may select
any worker.

* `run_quicReuseportCbpf` — the result of the program on every packet;
* `cbpf_refines_userspace` — composed with the filter of the selected loop it is
  the userspace router.
-/

namespace ReusePort

open Bpf.Classic

/-- `sock_filter`. -/
def sockFilter (code : UInt16) (jt jf : UInt8) (k : UInt32) : Insn := ⟨code, jt, jf, k⟩

namespace QuicReuseportCbpf

def BPF_LD : UInt16 := 0x00
def BPF_ALU : UInt16 := 0x04
def BPF_JMP : UInt16 := 0x05
def BPF_RET : UInt16 := 0x06
def BPF_H : UInt16 := 0x08
def BPF_B : UInt16 := 0x10
def BPF_ABS : UInt16 := 0x20
def BPF_K : UInt16 := 0x00
def BPF_A : UInt16 := 0x10
def BPF_JA : UInt16 := 0x00
def BPF_JSET : UInt16 := 0x40
def BPF_MOD : UInt16 := 0x90

end QuicReuseportCbpf

open QuicReuseportCbpf in
/-- `quic_reuseport_cbpf`; `workers as u32` truncates. -/
def quicReuseportCbpf (workers : ℕ) : List Insn :=
  [ sockFilter (BPF_LD ||| BPF_B ||| BPF_ABS) 0 0 0,
    sockFilter (BPF_JMP ||| BPF_JSET ||| BPF_K) 0 2 0x80,
    sockFilter (BPF_LD ||| BPF_H ||| BPF_ABS) 0 0 6,
    sockFilter (BPF_JMP ||| BPF_JA) 0 0 1,
    sockFilter (BPF_LD ||| BPF_H ||| BPF_ABS) 0 0 1,
    sockFilter (BPF_ALU ||| BPF_MOD ||| BPF_K) 0 0 (UInt32.ofNat workers),
    sockFilter (BPF_RET ||| BPF_A) 0 0 0 ]

/-! ## The result of the program -/

theorem decode_mod_const (k : UInt32) :
    Insn.decode ⟨0x94, 0, 0, k⟩ = some (.alu .mod (.const k)) := by
  simp +decide [Insn.decode, Insn.decodeAlu, Insn.src]

/-- The last two instructions: reduce the accumulator modulo the worker count
and return it. -/
theorem runFrom_mod_ret {workers v : ℕ} (hw : 1 ≤ workers) (hw' : workers ≤ 65536)
    (hv : v < 65536) (packet : List UInt8) (fuel : ℕ) (x : UInt32) :
    runFrom packet (fuel + 2) ((quicReuseportCbpf workers).drop 5) ⟨UInt32.ofNat v, x⟩ =
      some (UInt32.ofNat (v % workers)) := by
  have hnat : (UInt32.ofNat workers).toNat = workers := by
    rw [UInt32.toNat_ofNat']
    omega
  have hne : UInt32.ofNat workers ≠ 0 := by
    intro h
    have := congrArg UInt32.toNat h
    rw [hnat] at this
    simp at this
    omega
  have hmod : UInt32.ofNat v % UInt32.ofNat workers = UInt32.ofNat (v % workers) := by
    apply UInt32.toNat_inj.mp
    have hlt : v % workers < 2 ^ 32 :=
      Nat.lt_of_le_of_lt (Nat.mod_le _ _) (by omega)
    rw [UInt32.toNat_mod, hnat, UInt32.toNat_ofNat', UInt32.toNat_ofNat',
      Nat.mod_eq_of_lt (by omega : v < 2 ^ 32), Nat.mod_eq_of_lt hlt]
  have hdrop : (quicReuseportCbpf workers).drop 5 =
      [⟨0x94, 0, 0, UInt32.ofNat workers⟩, ⟨0x16, 0, 0, 0⟩] := rfl
  have hexec : (Op.alu .mod (.const (UInt32.ofNat workers))).exec packet ⟨UInt32.ofNat v, x⟩ =
      .next 0 ⟨UInt32.ofNat (v % workers), x⟩ := by
    simp [Op.exec, AluOp.eval, Src.eval, hne, Effect.ofOption, hmod]
  rw [hdrop, runFrom_next _ 0 (decode_mod_const _) hexec]
  exact runFrom_done .retA rfl rfl

/-- `A & 0x80` on a loaded byte is the router's test of the header form. -/
theorem test_headerForm (b : UInt8) :
    Cond.test .set (UInt32.ofNat b.toNat) 0x80 = true ↔ b &&& 0x80 ≠ 0 := by
  have hb := b.toNat_lt
  have hnat : (UInt32.ofNat b.toNat &&& 0x80).toNat = (b &&& 0x80).toNat := by
    rw [UInt32.toNat_and, UInt8.toNat_and, UInt32.toNat_ofNat', Nat.mod_eq_of_lt (by omega)]
    rfl
  simp only [Cond.test, decide_eq_true_eq, ne_eq, ← UInt32.toNat_inj, ← UInt8.toNat_inj, hnat]
  rfl

/-- The DCID prefix stands at offset 6 behind a long header and at offset 1
behind a short one. -/
def prefixOffset (b : UInt8) : ℕ := if b &&& 0x80 ≠ 0 then 6 else 1

/-- The half-word load and what follows it, in both branches. -/
theorem runFrom_prefix {packet : List UInt8} {workers offset : ℕ} {r : Regs} {i : Insn}
    {rest : List Insn} (fuel : ℕ) (k : UInt32) (hk : k.toNat = offset)
    (hop : i.decode = some (.ldAbs 2 k))
    (hcont : ∀ v < 65536, runFrom packet fuel rest { r with a := UInt32.ofNat v } =
      some (UInt32.ofNat (v % workers))) :
    runFrom packet (fuel + 1) (i :: rest) r =
      some (if offset + 2 ≤ packet.length
        then UInt32.ofNat (beValue ((packet.drop offset).take 2) % workers) else 0) := by
  by_cases hlen : offset + 2 ≤ packet.length
  · have hv : beValue ((packet.drop offset).take 2) < 65536 := by
      obtain ⟨hi, lo, hbytes⟩ : ∃ hi lo, (packet.drop offset).take 2 = [hi, lo] := by
        have hl : ((packet.drop offset).take 2).length = 2 := by
          simp only [List.length_take, List.length_drop]
          omega
        exact List.length_eq_two.mp hl
      rw [hbytes, beValue_two]
      have := hi.toNat_lt
      have := lo.toNat_lt
      omega
    rw [if_pos hlen, runFrom_next _ 0 hop (exec_ldAbs_some (by omega)), List.drop_zero, hk]
    exact hcont _ hv
  · rw [if_neg hlen]
    exact runFrom_done _ hop (exec_ldAbs_none (by omega))

/-- What the program returns: `0` on the empty packet, and otherwise the two
bytes at the prefix offset modulo the worker count, or `0` if they are not both
in the packet. -/
theorem run_quicReuseportCbpf {workers : ℕ} (hw : 1 ≤ workers) (hw' : workers ≤ 65536)
    (packet : List UInt8) :
    run (quicReuseportCbpf workers) packet =
      some (match packet with
        | [] => 0
        | b :: _ =>
            if prefixOffset b + 2 ≤ packet.length
            then UInt32.ofNat (beValue ((packet.drop (prefixOffset b)).take 2) % workers)
            else 0) := by
  show runFrom packet 7 (⟨0x30, 0, 0, 0⟩ :: ⟨0x45, 0, 2, 0x80⟩ :: ⟨0x28, 0, 0, 6⟩ ::
    ⟨0x05, 0, 0, 1⟩ :: ⟨0x28, 0, 0, 1⟩ :: (quicReuseportCbpf workers).drop 5) ⟨0, 0⟩ = _
  cases packet with
  | nil => exact runFrom_done (.ldAbs 1 0) rfl (exec_ldAbs_none (by decide))
  | cons b rest =>
      have hbyte : beValue (((b :: rest).drop 0).take 1) = b.toNat := by
        simp [beValue_one]
      rw [runFrom_next (.ldAbs 1 0) 0 rfl (exec_ldAbs_some (by simp)), List.drop_zero]
      show runFrom (b :: rest) 6 _ ⟨UInt32.ofNat (beValue (((b :: rest).drop 0).take 1)), 0⟩ = _
      rw [hbyte]
      by_cases hbit : b &&& 0x80 ≠ 0
      · -- long header: fall through to the load at offset 6, then jump over the other
        have htest : Cond.test .set (UInt32.ofNat b.toNat) 0x80 = true :=
          (test_headerForm b).mpr hbit
        rw [runFrom_next (.jump .set (.const 0x80) 0 2) 0 rfl
          (by simp only [Op.exec, Src.eval, htest, if_true]; rfl), List.drop_zero]
        have hoff : prefixOffset b = 6 := if_pos hbit
        simp only [hoff]
        refine runFrom_prefix 4 6 rfl rfl ?_
        intro v hv
        rw [runFrom_next (.jumpAlways 1) 1 rfl rfl]
        exact runFrom_mod_ret hw hw' hv _ 1 0
      · -- short header: jump to the load at offset 1
        have htest : Cond.test .set (UInt32.ofNat b.toNat) 0x80 = false := by
          rw [← Bool.not_eq_true, test_headerForm]
          exact hbit
        rw [runFrom_next (.jump .set (.const 0x80) 0 2) 2 rfl
          (by simp only [Op.exec, Src.eval, htest]; rfl), List.drop_succ_cons,
          List.drop_succ_cons, List.drop_zero]
        have hoff : prefixOffset b = 1 := if_neg hbit
        simp only [hoff]
        refine runFrom_prefix 4 1 rfl rfl ?_
        intro v hv
        exact runFrom_mod_ret hw hw' hv _ 2 0

/-! ## Refinement of the userspace router -/

/-- The worker whose native loop gets the packet: the program's result selects
the socket of that index. -/
def kernelSelects (workers : ℕ) (packet : List UInt8) : Option ℕ :=
  (run (quicReuseportCbpf workers) packet).map UInt32.toNat

/-- The worker on which the native path runs a handler for the packet: the
selected one, if its loop (`quic_reuseport_bpf_listener_loop_with_state`) accepts
the packet. -/
def nativeHandlerWorker (workers : ℕ) (packet : List UInt8) : Option ℕ :=
  (kernelSelects workers packet).filter fun _ => quicReuseportBpfAcceptsPacket packet workers

/-- The program ends on every packet with the index of a worker. -/
theorem kernelSelects_lt {workers : ℕ} (hw : 1 ≤ workers) (hw' : workers ≤ 65536)
    (packet : List UInt8) : ∃ w, kernelSelects workers packet = some w ∧ w < workers := by
  have hlt : ∀ v : ℕ, (UInt32.ofNat (v % workers)).toNat < workers := by
    intro v
    have hmod : v % workers < workers := Nat.mod_lt _ hw
    rw [UInt32.toNat_ofNat', Nat.mod_eq_of_lt (by omega)]
    exact hmod
  rw [kernelSelects, run_quicReuseportCbpf hw hw']
  refine ⟨_, rfl, ?_⟩
  cases packet with
  | nil => exact hw
  | cons b rest =>
      dsimp only
      split
      · exact hlt _
      · exact hw

/-- On a packet that the router accepts, the program selects its worker. -/
theorem kernelSelects_of_routed {workers w : ℕ} {packet : List UInt8} (hw' : workers ≤ 65536)
    (hroute : quicWorkerIndex packet workers = some w) :
    kernelSelects workers packet = some w := by
  have hlt : w < workers := quicWorkerIndex_lt hroute
  rcases quicWorkerIndex_eq_some_iff.mp hroute with ⟨hpos, hshort | hlong⟩
  · rcases hshort with ⟨b, hi, lo, rest, rfl, hbit, rfl⟩
    have hoff : prefixOffset b = 1 := if_neg (by simpa using hbit)
    have hlen : 1 + 2 ≤ (b :: hi :: lo :: rest).length := by
      simp only [List.length_cons]
      omega
    rw [kernelSelects, run_quicReuseportCbpf hpos hw']
    simp only [hoff, if_pos hlen, List.drop_succ_cons, List.drop_zero, List.take_succ_cons,
      List.take_zero, beValue_two, Option.map_some, UInt32.toNat_ofNat']
    rw [Nat.mod_eq_of_lt (by omega)]
  · rcases hlong with ⟨b, v₁, v₂, v₃, v₄, len, hi, lo, rest, rfl, hbit, -, -, rfl⟩
    have hoff : prefixOffset b = 6 := if_pos hbit
    have hlen : 6 + 2 ≤ (b :: v₁ :: v₂ :: v₃ :: v₄ :: len :: hi :: lo :: rest).length := by
      simp only [List.length_cons]
      omega
    rw [kernelSelects, run_quicReuseportCbpf hpos hw']
    simp only [hoff, if_pos hlen, List.drop_succ_cons, List.drop_zero, List.take_succ_cons,
      List.take_zero, beValue_two, Option.map_some, UInt32.toNat_ofNat']
    rw [Nat.mod_eq_of_lt (by omega)]

/-- The kernel path refines the userspace path. The program ends with some
worker on every packet; if the router has an answer it is that worker, whose
loop accepts the packet; if the router has none, the loop of the selected
worker, whichever it is, rejects the packet. So both paths run the handler on
the same worker or drop the packet. -/
theorem cbpf_refines_userspace {workers : ℕ} (hw : 1 ≤ workers) (hw' : workers ≤ 65536)
    (packet : List UInt8) :
    (∀ w, quicWorkerIndex packet workers = some w →
      kernelSelects workers packet = some w ∧
        quicReuseportBpfAcceptsPacket packet workers = true) ∧
    (quicWorkerIndex packet workers = none →
      ∃ w, kernelSelects workers packet = some w ∧ w < workers ∧
        quicReuseportBpfAcceptsPacket packet workers = false) ∧
    nativeHandlerWorker workers packet = quicWorkerIndex packet workers := by
  have haccept : quicReuseportBpfAcceptsPacket packet workers =
      (quicWorkerIndex packet workers).isSome := rfl
  refine ⟨fun w hroute => ?_, fun hnone => ?_, ?_⟩
  · refine ⟨kernelSelects_of_routed hw' hroute, ?_⟩
    rw [haccept, hroute]
    rfl
  · obtain ⟨w, hsel, hlt⟩ := kernelSelects_lt hw hw' packet
    refine ⟨w, hsel, hlt, ?_⟩
    rw [haccept, hnone]
    rfl
  · cases hroute : quicWorkerIndex packet workers with
    | none =>
        obtain ⟨w, hsel, -⟩ := kernelSelects_lt hw hw' packet
        rw [nativeHandlerWorker, hsel, haccept, hroute]
        rfl
    | some w =>
        rw [nativeHandlerWorker, kernelSelects_of_routed hw' hroute, haccept, hroute]
        rfl

end ReusePort
