import ReusePort.Bpf.Extended
import ReusePort.Core.Quic

/-!
# ReusePort.Platform.Ebpf — the eBPF reuse-port selector

`quicReuseportEbpf` (`platform/linux.rs`) is a hand-assembled eBPF program. It takes a
context with two words, the beginning and the end of a window of bytes, checks every
byte that it reads against the end, and returns the two bytes of a worker index prefix
modulo the worker count, or zero.

* `run_quicReuseportEbpf` — the result of the program on every window, one lemma per
  block of instructions;
* `ebpf_computes_router` — on a window that is the payload of a packet it is the
  userspace router;
* `SkReuseport.delivers` — what the kernel makes of the program, loaded as
  `BPF_PROG_TYPE_SK_REUSEPORT`: there the window begins with the UDP header, and the
  result is a verdict, not an index;
* `ebpf_delivers_iff` — when a datagram still gets to the router's worker.
-/

namespace ReusePort

open Bpf.Extended

/-- `bpf_insn`. -/
def bpfInsn (code dst src : UInt8) (off : Int16) (imm : Int32) : Insn :=
  ⟨code, dst ||| (src <<< 4), off, imm⟩

namespace QuicReuseportEbpf

def BPF_LDX : UInt8 := 0x01
def BPF_ALU64 : UInt8 := 0x07
def BPF_JMP : UInt8 := 0x05
def BPF_DW : UInt8 := 0x18
def BPF_B : UInt8 := 0x10
def BPF_MEM : UInt8 := 0x60
def BPF_K : UInt8 := 0x00
def BPF_X : UInt8 := 0x08
def BPF_ADD : UInt8 := 0x00
def BPF_OR : UInt8 := 0x40
def BPF_AND : UInt8 := 0x50
def BPF_LSH : UInt8 := 0x60
def BPF_MOD : UInt8 := 0x90
def BPF_MOV : UInt8 := 0xb0
def BPF_JEQ : UInt8 := 0x10
def BPF_JGT : UInt8 := 0x20
def BPF_JLT : UInt8 := 0xa0
def BPF_EXIT : UInt8 := 0x90

end QuicReuseportEbpf

open QuicReuseportEbpf in
/-- `quic_reuseport_ebpf`; `workers as i32` truncates. -/
def quicReuseportEbpf (workers : ℕ) : List Insn :=
  [ bpfInsn (BPF_ALU64 ||| BPF_MOV ||| BPF_X) 6 1 0 0,
    bpfInsn (BPF_LDX ||| BPF_DW ||| BPF_MEM) 2 6 0 0,
    bpfInsn (BPF_LDX ||| BPF_DW ||| BPF_MEM) 3 6 8 0,
    bpfInsn (BPF_ALU64 ||| BPF_MOV ||| BPF_X) 4 2 0 0,
    bpfInsn (BPF_ALU64 ||| BPF_ADD ||| BPF_K) 4 0 0 1,
    bpfInsn (BPF_JMP ||| BPF_JGT ||| BPF_X) 4 3 26 0,
    bpfInsn (BPF_LDX ||| BPF_B ||| BPF_MEM) 0 2 0 0,
    bpfInsn (BPF_ALU64 ||| BPF_AND ||| BPF_K) 0 0 0 0x80,
    bpfInsn (BPF_JMP ||| BPF_JEQ ||| BPF_K) 0 0 14 0,
    bpfInsn (BPF_ALU64 ||| BPF_MOV ||| BPF_X) 4 2 0 0,
    bpfInsn (BPF_ALU64 ||| BPF_ADD ||| BPF_K) 4 0 0 6,
    bpfInsn (BPF_JMP ||| BPF_JGT ||| BPF_X) 4 3 20 0,
    bpfInsn (BPF_LDX ||| BPF_B ||| BPF_MEM) 4 2 5 0,
    bpfInsn (BPF_JMP ||| BPF_JLT ||| BPF_K) 4 0 18 2,
    bpfInsn (BPF_ALU64 ||| BPF_MOV ||| BPF_X) 5 2 0 0,
    bpfInsn (BPF_ALU64 ||| BPF_ADD ||| BPF_K) 5 0 0 8,
    bpfInsn (BPF_JMP ||| BPF_JGT ||| BPF_X) 5 3 15 0,
    bpfInsn (BPF_LDX ||| BPF_B ||| BPF_MEM) 0 2 6 0,
    bpfInsn (BPF_ALU64 ||| BPF_LSH ||| BPF_K) 0 0 0 8,
    bpfInsn (BPF_LDX ||| BPF_B ||| BPF_MEM) 4 2 7 0,
    bpfInsn (BPF_ALU64 ||| BPF_OR ||| BPF_X) 0 4 0 0,
    bpfInsn (BPF_ALU64 ||| BPF_MOD ||| BPF_K) 0 0 0 (Int32.ofNat workers),
    bpfInsn (BPF_JMP ||| BPF_EXIT) 0 0 0 0,
    bpfInsn (BPF_ALU64 ||| BPF_MOV ||| BPF_X) 4 2 0 0,
    bpfInsn (BPF_ALU64 ||| BPF_ADD ||| BPF_K) 4 0 0 3,
    bpfInsn (BPF_JMP ||| BPF_JGT ||| BPF_X) 4 3 6 0,
    bpfInsn (BPF_LDX ||| BPF_B ||| BPF_MEM) 0 2 1 0,
    bpfInsn (BPF_ALU64 ||| BPF_LSH ||| BPF_K) 0 0 0 8,
    bpfInsn (BPF_LDX ||| BPF_B ||| BPF_MEM) 4 2 2 0,
    bpfInsn (BPF_ALU64 ||| BPF_OR ||| BPF_X) 0 4 0 0,
    bpfInsn (BPF_ALU64 ||| BPF_MOD ||| BPF_K) 0 0 0 (Int32.ofNat workers),
    bpfInsn (BPF_JMP ||| BPF_EXIT) 0 0 0 0,
    bpfInsn (BPF_ALU64 ||| BPF_MOV ||| BPF_K) 0 0 0 0,
    bpfInsn (BPF_JMP ||| BPF_EXIT) 0 0 0 0 ]

/-! ## The window -/

/-- The memory of a run: a context of two words at `ctx`, and the window of bytes that
they delimit. The window is packet memory of the kernel, and Linux maps nothing at the
end of the address space; so the window ends before it, and so do the eight bytes after
its beginning, which the program points at to check its bounds. -/
structure Window where
  ctx : UInt64
  data : UInt64
  bytes : List UInt8
  room : data.toNat + max bytes.length 8 < 2 ^ 64

namespace Window

variable (w : Window)

/-- The second word of the context. -/
def dataEnd : UInt64 := w.data + UInt64.ofNat w.bytes.length

/-- What the program may read: the two words of the context, whole, and the bytes of the
window one by one. -/
def mem (addr : UInt64) (size : ℕ) : Option UInt64 :=
  if size = 8 ∧ addr = w.ctx then some w.data
  else if size = 8 ∧ addr = w.ctx + 8 then some w.dataEnd
  else if size = 1 ∧ w.data ≤ addr then
    (w.bytes[(addr - w.data).toNat]?).map fun b => UInt64.ofNat b.toNat
  else none

/-- Helpers are the kernel's; the program calls none. -/
def env (helper : Call → UInt64) : Env := ⟨w.mem, helper⟩

theorem toNat_add {k : ℕ} (hk : k ≤ max w.bytes.length 8) :
    (w.data + UInt64.ofNat k).toNat = w.data.toNat + k := by
  have hroom := w.room
  have hk' : (UInt64.ofNat k).toNat = k := toNat_ofNat_of_lt (by omega)
  rw [UInt64.toNat_add, hk', Nat.mod_eq_of_lt (by omega)]

/-- The program's bounds check: `data + k > data_end`. -/
theorem test_gt {k : ℕ} (hk : k ≤ 8) :
    Cond.test .gt (w.data + UInt64.ofNat k) w.dataEnd = true ↔ w.bytes.length < k := by
  have hstart := w.toNat_add (Nat.le_trans hk (Nat.le_max_right w.bytes.length 8))
  have hend := w.toNat_add (Nat.le_max_left w.bytes.length 8)
  simp only [Cond.test, decide_eq_true_eq, UInt64.lt_iff_toNat_lt, dataEnd, hstart, hend]
  omega

/-- A byte of the window, read at its offset. -/
theorem mem_byte {k : ℕ} (hk : k < w.bytes.length) :
    w.mem (w.data + UInt64.ofNat k) 1 = some (UInt64.ofNat (w.bytes.getD k 0).toNat) := by
  have haddr := w.toNat_add (Nat.le_trans (Nat.le_of_lt hk) (Nat.le_max_left w.bytes.length 8))
  have hle : w.data ≤ w.data + UInt64.ofNat k := by
    rw [UInt64.le_iff_toNat_le, haddr]
    omega
  have hsub : (w.data + UInt64.ofNat k - w.data).toNat = k := by
    rw [UInt64.toNat_sub_of_le _ _ hle, haddr]
    omega
  have h8 : ∀ addr, ¬ (1 = 8 ∧ w.data + UInt64.ofNat k = addr) := fun _ h => absurd h.1 (by decide)
  rw [mem, if_neg (h8 _), if_neg (h8 _), if_pos ⟨rfl, hle⟩, hsub, List.getD_eq_getElem?_getD,
    List.getElem?_eq_getElem hk, Option.map_some, Option.getD_some]

end Window

/-! ## The blocks of the program -/

/-- The two words of the context are in `r2` and `r3`. -/
structure Loaded (w : Window) (regs : Reg → Option UInt64) : Prop where
  data : regs 2 = some w.data
  dataEnd : regs 3 = some w.dataEnd

/-- The other registers do not matter. -/
theorem Loaded.update {w : Window} {regs : Reg → Option UInt64} (h : Loaded w regs) {x : Reg}
    (h2 : x ≠ 2) (h3 : x ≠ 3) (v : Option UInt64) : Loaded w (Function.update regs x v) where
  data := by rw [Function.update_of_ne h2.symm]; exact h.data
  dataEnd := by rw [Function.update_of_ne h3.symm]; exact h.dataEnd

section Blocks

variable {w : Window} {helper : Call → UInt64} {program : List Insn} {fuel pc : ℕ}
  {regs : Reg → Option UInt64} {calls : List Call}

/-- `x = r2; x += k; if x > r3 goto target`: go on if the window has `k` bytes. -/
theorem run_boundsCheck (x : Reg) (k : ℕ) (imm : Int32) (off : Int16) (target : ℕ)
    (h2 : x ≠ 2) (h3 : x ≠ 3) (hk : k ≤ 8) (himm : signExtend imm = UInt64.ofNat k)
    (hmov : fetch program pc = .ok (.mov x (.reg 2)))
    (hadd : fetch program (pc + 1) = .ok (.alu .add x (.imm imm)))
    (hjump : fetch program (pc + 2) = .ok (.jump .gt x (.reg 3) off))
    (htarget : ((pc + 2 : ℕ) : ℤ) + 1 + off.toInt = target) (h : Loaded w regs) :
    ∃ regs', Loaded w regs' ∧
      runFrom (w.env helper) program (fuel + 3) ⟨pc, regs, calls⟩ =
        runFrom (w.env helper) program fuel
          ⟨if w.bytes.length < k then target else pc + 3, regs', calls⟩ := by
  let regs₁ := Function.update regs x (some w.data)
  let regs₂ := Function.update regs₁ x (some (w.data + UInt64.ofNat k))
  have hloaded : Loaded w regs₂ := (h.update h2 h3 _).update h2 h3 _
  have hfirst : (Op.mov x (.reg 2)).exec (w.env helper) ⟨pc, regs, calls⟩ =
      .ok (.next ⟨pc + 1, regs₁, calls⟩) := exec_mov (Src.eval_reg h.data)
  have hsecond : (Op.alu .add x (.imm imm)).exec (w.env helper) ⟨pc + 1, regs₁, calls⟩ =
      .ok (.next ⟨pc + 2, regs₂, calls⟩) := by
    have hx : regs₁ x = some w.data := Function.update_self _ _ _
    have himm' : (Src.imm imm).eval ⟨pc + 1, regs₁, calls⟩ = .ok (UInt64.ofNat k) :=
      congrArg Except.ok himm
    exact exec_alu (s := ⟨pc + 1, regs₁, calls⟩) hx himm'
  have hthird : (Op.jump .gt x (.reg 3) off).exec (w.env helper) ⟨pc + 2, regs₂, calls⟩ =
      .ok (.next ⟨if w.bytes.length < k then target else pc + 3, regs₂, calls⟩) := by
    have hx : regs₂ x = some (w.data + UInt64.ofNat k) := Function.update_self _ _ _
    rw [exec_jump (s := ⟨pc + 2, regs₂, calls⟩) target hx (Src.eval_reg hloaded.dataEnd) htarget]
    simp only [w.test_gt hk]
  refine ⟨regs₂, hloaded, ?_⟩
  rw [runFrom_next hmov hfirst, runFrom_next hadd hsecond, runFrom_next hjump hthird]

/-- Two bytes, put together by `r0 <<= 8; r0 |= r4`. -/
theorem eval_prefix (hi lo : UInt8) :
    AluOp.eval .or (AluOp.eval .lsh (UInt64.ofNat hi.toNat) 8) (UInt64.ofNat lo.toNat) =
      UInt64.ofNat (hi.toNat * 256 + lo.toNat) := by
  have hhi := hi.toNat_lt
  have hlo := lo.toNat_lt
  have hshift : (UInt64.ofNat hi.toNat <<< ((8 : UInt64) &&& 63)).toNat = hi.toNat <<< 8 := by
    have hamount : ((8 : UInt64) &&& 63).toNat % 64 = 8 := by decide
    have hhi' : (UInt64.ofNat hi.toNat).toNat = hi.toNat :=
      toNat_ofNat_of_lt (by omega)
    rw [UInt64.toNat_shiftLeft, hamount, hhi', Nat.shiftLeft_eq, Nat.mod_eq_of_lt (by omega)]
  have hlo' : (UInt64.ofNat lo.toNat).toNat = lo.toNat := toNat_ofNat_of_lt (by omega)
  have hsum : (UInt64.ofNat (hi.toNat * 256 + lo.toNat)).toNat = hi.toNat * 256 + lo.toNat :=
    toNat_ofNat_of_lt (by omega)
  apply UInt64.toNat_inj.mp
  rw [hsum, ← shiftLeft_or_toNat, ← hshift]
  refine (UInt64.toNat_or _ _).trans ?_
  rw [hlo']
  rfl

/-- `r0 %= workers`. -/
theorem eval_mod {v workers : ℕ} (hw : 1 ≤ workers) (hw' : workers ≤ 65536) (hv : v < 65536) :
    AluOp.eval .mod (UInt64.ofNat v) (UInt64.ofNat workers) = UInt64.ofNat (v % workers) := by
  have hworkers : (UInt64.ofNat workers).toNat = workers :=
    toNat_ofNat_of_lt (by omega)
  have hvalue : (UInt64.ofNat v).toNat = v := toNat_ofNat_of_lt (by omega)
  have hle : v % workers ≤ v := Nat.mod_le v workers
  have hmod : (UInt64.ofNat (v % workers)).toNat = v % workers :=
    toNat_ofNat_of_lt (by omega)
  have hne : UInt64.ofNat workers ≠ 0 := by
    intro hzero
    have hz := congrArg UInt64.toNat hzero
    rw [hworkers] at hz
    have : (0 : UInt64).toNat = 0 := rfl
    omega
  apply UInt64.toNat_inj.mp
  rw [AluOp.eval, if_neg hne, UInt64.toNat_mod, hworkers, hvalue, hmod]

/-- The two bytes of the window at an offset, as a big-endian number. -/
def prefixAt (bytes : List UInt8) (offset : ℕ) : ℕ :=
  (bytes.getD offset 0).toNat * 256 + (bytes.getD (offset + 1) 0).toNat

theorem prefixAt_lt (bytes : List UInt8) (offset : ℕ) : prefixAt bytes offset < 65536 := by
  have hhi := (bytes.getD offset 0).toNat_lt
  have hlo := (bytes.getD (offset + 1) 0).toNat_lt
  unfold prefixAt
  omega

/-- `r0 = r2[offset]; r0 <<= 8; r4 = r2[offset + 1]; r0 |= r4`. -/
theorem run_loadPrefix (offset : ℕ) (off off' : Int16)
    (hoff : signExtendOff off = UInt64.ofNat offset)
    (hoff' : signExtendOff off' = UInt64.ofNat (offset + 1))
    (hhi : fetch program pc = .ok (.ldx 1 0 2 off))
    (hshift : fetch program (pc + 1) = .ok (.alu .lsh 0 (.imm 8)))
    (hlo : fetch program (pc + 2) = .ok (.ldx 1 4 2 off'))
    (hor : fetch program (pc + 3) = .ok (.alu .or 0 (.reg 4))) (h : Loaded w regs)
    (hlen : offset + 2 ≤ w.bytes.length) :
    ∃ regs' : Reg → Option UInt64, regs' 0 = some (UInt64.ofNat (prefixAt w.bytes offset)) ∧
      runFrom (w.env helper) program (fuel + 4) ⟨pc, regs, calls⟩ =
        runFrom (w.env helper) program fuel ⟨pc + 4, regs', calls⟩ := by
  let hi := w.bytes.getD offset 0
  let lo := w.bytes.getD (offset + 1) 0
  let v₁ := UInt64.ofNat hi.toNat
  let v₂ := AluOp.eval .lsh v₁ 8
  let v₃ := AluOp.eval .or v₂ (UInt64.ofNat lo.toNat)
  let regs₁ := Function.update regs 0 (some v₁)
  let regs₂ := Function.update regs₁ 0 (some v₂)
  let regs₃ := Function.update regs₂ 4 (some (UInt64.ofNat lo.toNat))
  let regs₄ := Function.update regs₃ 0 (some v₃)
  have hvalue : v₃ = UInt64.ofNat (prefixAt w.bytes offset) := eval_prefix hi lo
  have h₁ : regs₁ 0 = some v₁ := Function.update_self _ _ _
  have h₃ : regs₃ 0 = some v₂ := by simp [regs₃, regs₂]
  have h₃' : regs₃ 4 = some (UInt64.ofNat lo.toNat) := Function.update_self _ _ _
  have h₄ : regs₄ 0 = some v₃ := Function.update_self _ _ _
  have hloaded₂ : Loaded w regs₂ :=
    (h.update (by decide) (by decide) _).update (by decide) (by decide) _
  have hexec₁ : (Op.ldx 1 0 2 off).exec (w.env helper) ⟨pc, regs, calls⟩ =
      .ok (.next ⟨pc + 1, regs₁, calls⟩) := by
    refine exec_ldx (s := ⟨pc, regs, calls⟩) h.data ?_
    rw [hoff]
    exact w.mem_byte (by omega)
  have hexec₂ : (Op.alu .lsh 0 (.imm 8)).exec (w.env helper) ⟨pc + 1, regs₁, calls⟩ =
      .ok (.next ⟨pc + 2, regs₂, calls⟩) :=
    exec_alu (s := ⟨pc + 1, regs₁, calls⟩) h₁ rfl
  have hexec₃ : (Op.ldx 1 4 2 off').exec (w.env helper) ⟨pc + 2, regs₂, calls⟩ =
      .ok (.next ⟨pc + 3, regs₃, calls⟩) := by
    refine exec_ldx (s := ⟨pc + 2, regs₂, calls⟩) hloaded₂.data ?_
    rw [hoff']
    exact w.mem_byte (by omega)
  have hexec₄ : (Op.alu .or 0 (.reg 4)).exec (w.env helper) ⟨pc + 3, regs₃, calls⟩ =
      .ok (.next ⟨pc + 4, regs₄, calls⟩) :=
    exec_alu (s := ⟨pc + 3, regs₃, calls⟩) h₃ (Src.eval_reg h₃')
  refine ⟨regs₄, hvalue ▸ h₄, ?_⟩
  rw [runFrom_next hhi hexec₁, runFrom_next hshift hexec₂, runFrom_next hlo hexec₃,
    runFrom_next hor hexec₄]

/-- `r0 %= workers; exit`. -/
theorem run_modExit {workers v : ℕ} (hw : 1 ≤ workers) (hw' : workers ≤ 65536) (hv : v < 65536)
    (hmod : fetch program pc = .ok (.alu .mod 0 (.imm (Int32.ofNat workers))))
    (hexit : fetch program (pc + 1) = .ok .exit) (h : regs 0 = some (UInt64.ofNat v)) :
    runFrom (w.env helper) program (fuel + 2) ⟨pc, regs, calls⟩ =
      .exit (UInt64.ofNat (v % workers)) calls := by
  let regs₁ := Function.update regs 0 (some (UInt64.ofNat (v % workers)))
  have h₁ : regs₁ 0 = some (UInt64.ofNat (v % workers)) := Function.update_self _ _ _
  have himm : (Src.imm (Int32.ofNat workers)).eval ⟨pc, regs, calls⟩ =
      .ok (UInt64.ofNat workers) :=
    congrArg Except.ok (signExtend_ofNat (by omega))
  have hexec : (Op.alu .mod 0 (.imm (Int32.ofNat workers))).exec (w.env helper)
      ⟨pc, regs, calls⟩ = .ok (.next ⟨pc + 1, regs₁, calls⟩) := by
    rw [exec_alu (s := ⟨pc, regs, calls⟩) h himm, eval_mod hw hw' hv]
    rfl
  rw [runFrom_next hmod hexec]
  exact runFrom_exit (s := ⟨pc + 1, regs₁, calls⟩) hexit h₁

/-- The worker index of the two bytes at `offset`. -/
theorem run_prefix {workers : ℕ} (hw : 1 ≤ workers) (hw' : workers ≤ 65536) (offset : ℕ)
    (off off' : Int16) (hoff : signExtendOff off = UInt64.ofNat offset)
    (hoff' : signExtendOff off' = UInt64.ofNat (offset + 1))
    (hhi : fetch program pc = .ok (.ldx 1 0 2 off))
    (hshift : fetch program (pc + 1) = .ok (.alu .lsh 0 (.imm 8)))
    (hlo : fetch program (pc + 2) = .ok (.ldx 1 4 2 off'))
    (hor : fetch program (pc + 3) = .ok (.alu .or 0 (.reg 4)))
    (hmod : fetch program (pc + 4) = .ok (.alu .mod 0 (.imm (Int32.ofNat workers))))
    (hexit : fetch program (pc + 5) = .ok .exit) (h : Loaded w regs)
    (hlen : offset + 2 ≤ w.bytes.length) :
    runFrom (w.env helper) program (fuel + 6) ⟨pc, regs, calls⟩ =
      .exit (UInt64.ofNat (prefixAt w.bytes offset % workers)) calls := by
  obtain ⟨regs', hzero, hload⟩ := @run_loadPrefix w helper program (fuel + 2) pc regs calls offset
    off off' hoff hoff' hhi hshift hlo hor h hlen
  rw [hload]
  exact run_modExit hw hw' (prefixAt_lt w.bytes offset) hmod hexit hzero

/-- A byte keeps its value in a register. -/
theorem toNat_byte (b : UInt8) : (UInt64.ofNat b.toNat).toNat = b.toNat := by
  have hb := b.toNat_lt
  exact toNat_ofNat_of_lt (by omega)

/-- The mask sees the same bit in the byte and in the register. -/
theorem test_headerBit (b : UInt8) :
    Cond.test .eq (AluOp.eval .and (UInt64.ofNat b.toNat) 0x80) 0 = true ↔ b &&& 0x80 = 0 := by
  have hnat : (UInt64.ofNat b.toNat &&& 0x80).toNat = (b &&& 0x80).toNat := by
    rw [UInt64.toNat_and, UInt8.toNat_and, toNat_byte]
    rfl
  simp only [Cond.test, AluOp.eval, decide_eq_true_eq, ← UInt64.toNat_inj, ← UInt8.toNat_inj, hnat]
  rfl

theorem test_lengthByte (len : UInt8) :
    Cond.test .lt (UInt64.ofNat len.toNat) 2 = true ↔ len.toNat < 2 := by
  simp only [Cond.test, decide_eq_true_eq, UInt64.lt_iff_toNat_lt, toNat_byte]
  rfl

/-- `r0 = r2[0]; r0 &= 0x80; if r0 == 0 goto target`: a long header goes on. -/
theorem run_headerForm (off : Int16) (target : ℕ)
    (hload : fetch program pc = .ok (.ldx 1 0 2 0))
    (hand : fetch program (pc + 1) = .ok (.alu .and 0 (.imm 0x80)))
    (hjump : fetch program (pc + 2) = .ok (.jump .eq 0 (.imm 0) off))
    (htarget : ((pc + 2 : ℕ) : ℤ) + 1 + off.toInt = target) (h : Loaded w regs)
    (hlen : 1 ≤ w.bytes.length) :
    ∃ regs', Loaded w regs' ∧
      runFrom (w.env helper) program (fuel + 3) ⟨pc, regs, calls⟩ =
        runFrom (w.env helper) program fuel
          ⟨if w.bytes.getD 0 0 &&& 0x80 = 0 then target else pc + 3, regs', calls⟩ := by
  let b := w.bytes.getD 0 0
  let regs₁ := Function.update regs 0 (some (UInt64.ofNat b.toNat))
  let regs₂ := Function.update regs₁ 0 (some (AluOp.eval .and (UInt64.ofNat b.toNat) 0x80))
  have hloaded : Loaded w regs₂ :=
    (h.update (by decide) (by decide) _).update (by decide) (by decide) _
  have h₁ : regs₁ 0 = some (UInt64.ofNat b.toNat) := Function.update_self _ _ _
  have h₂ : regs₂ 0 = some (AluOp.eval .and (UInt64.ofNat b.toNat) 0x80) :=
    Function.update_self _ _ _
  have hexec₁ : (Op.ldx 1 0 2 0).exec (w.env helper) ⟨pc, regs, calls⟩ =
      .ok (.next ⟨pc + 1, regs₁, calls⟩) :=
    exec_ldx (s := ⟨pc, regs, calls⟩) h.data (w.mem_byte hlen)
  have hexec₂ : (Op.alu .and 0 (.imm 0x80)).exec (w.env helper) ⟨pc + 1, regs₁, calls⟩ =
      .ok (.next ⟨pc + 2, regs₂, calls⟩) :=
    exec_alu (s := ⟨pc + 1, regs₁, calls⟩) h₁ rfl
  have hexec₃ : (Op.jump .eq 0 (.imm 0) off).exec (w.env helper) ⟨pc + 2, regs₂, calls⟩ =
      .ok (.next ⟨if b &&& 0x80 = 0 then target else pc + 3, regs₂, calls⟩) := by
    have hzero : (Src.imm 0).eval ⟨pc + 2, regs₂, calls⟩ = .ok 0 := rfl
    rw [exec_jump (s := ⟨pc + 2, regs₂, calls⟩) target h₂ hzero htarget]
    simp only [test_headerBit]
  refine ⟨regs₂, hloaded, ?_⟩
  rw [runFrom_next hload hexec₁, runFrom_next hand hexec₂, runFrom_next hjump hexec₃]

/-- `r4 = r2[5]; if r4 < 2 goto target`: a DCID of at least two bytes goes on. -/
theorem run_lengthByte (off : Int16) (target : ℕ)
    (hload : fetch program pc = .ok (.ldx 1 4 2 5))
    (hjump : fetch program (pc + 1) = .ok (.jump .lt 4 (.imm 2) off))
    (htarget : ((pc + 1 : ℕ) : ℤ) + 1 + off.toInt = target) (h : Loaded w regs)
    (hlen : 6 ≤ w.bytes.length) :
    ∃ regs', Loaded w regs' ∧
      runFrom (w.env helper) program (fuel + 2) ⟨pc, regs, calls⟩ =
        runFrom (w.env helper) program fuel
          ⟨if (w.bytes.getD 5 0).toNat < 2 then target else pc + 2, regs', calls⟩ := by
  let len := w.bytes.getD 5 0
  let regs₁ := Function.update regs 4 (some (UInt64.ofNat len.toNat))
  have hloaded : Loaded w regs₁ := h.update (by decide) (by decide) _
  have h₁ : regs₁ 4 = some (UInt64.ofNat len.toNat) := Function.update_self _ _ _
  have hexec₁ : (Op.ldx 1 4 2 5).exec (w.env helper) ⟨pc, regs, calls⟩ =
      .ok (.next ⟨pc + 1, regs₁, calls⟩) :=
    exec_ldx (s := ⟨pc, regs, calls⟩) h.data (w.mem_byte hlen)
  have hexec₂ : (Op.jump .lt 4 (.imm 2) off).exec (w.env helper) ⟨pc + 1, regs₁, calls⟩ =
      .ok (.next ⟨if len.toNat < 2 then target else pc + 2, regs₁, calls⟩) := by
    have htwo : (Src.imm 2).eval ⟨pc + 1, regs₁, calls⟩ = .ok 2 := rfl
    rw [exec_jump (s := ⟨pc + 1, regs₁, calls⟩) target h₁ htwo htarget]
    simp only [test_lengthByte]
  refine ⟨regs₁, hloaded, ?_⟩
  rw [runFrom_next hload hexec₁, runFrom_next hjump hexec₂]

/-- `r0 = 0; exit`. -/
theorem run_default (hmov : fetch program pc = .ok (.mov 0 (.imm 0)))
    (hexit : fetch program (pc + 1) = .ok .exit) :
    runFrom (w.env helper) program (fuel + 2) ⟨pc, regs, calls⟩ = .exit 0 calls := by
  let regs₁ := Function.update regs 0 (some 0)
  have h₁ : regs₁ 0 = some 0 := Function.update_self _ _ _
  have hexec : (Op.mov 0 (.imm 0)).exec (w.env helper) ⟨pc, regs, calls⟩ =
      .ok (.next ⟨pc + 1, regs₁, calls⟩) := exec_mov rfl
  rw [runFrom_next hmov hexec]
  exact runFrom_exit (s := ⟨pc + 1, regs₁, calls⟩) hexit h₁

/-- `r6 = r1; r2 = r6[0]; r3 = r6[8]`. -/
theorem run_entry (frame : UInt64) (hmov : fetch program 0 = .ok (.mov 6 (.reg 1)))
    (hdata : fetch program 1 = .ok (.ldx 8 2 6 0))
    (hend : fetch program 2 = .ok (.ldx 8 3 6 8)) :
    ∃ regs, Loaded w regs ∧
      runFrom (w.env helper) program (fuel + 3) ⟨0, entry w.ctx frame, []⟩ =
        runFrom (w.env helper) program fuel ⟨3, regs, []⟩ := by
  let regs₁ := Function.update (entry w.ctx frame) 6 (some w.ctx)
  let regs₂ := Function.update regs₁ 2 (some w.data)
  let regs₃ := Function.update regs₂ 3 (some w.dataEnd)
  have hne : w.ctx + 8 ≠ w.ctx := by
    intro heq
    have := congrArg UInt64.toNat heq
    have height : (8 : UInt64).toNat = 8 := rfl
    have hlt := w.ctx.toNat_lt
    rw [UInt64.toNat_add, height] at this
    omega
  have hexec₁ : (Op.mov 6 (.reg 1)).exec (w.env helper) ⟨0, entry w.ctx frame, []⟩ =
      .ok (.next ⟨1, regs₁, []⟩) :=
    exec_mov (Src.eval_reg (s := ⟨0, entry w.ctx frame, []⟩) rfl)
  have hexec₂ : (Op.ldx 8 2 6 0).exec (w.env helper) ⟨1, regs₁, []⟩ =
      .ok (.next ⟨2, regs₂, []⟩) := by
    have h6 : regs₁ 6 = some w.ctx := Function.update_self _ _ _
    refine exec_ldx (s := ⟨1, regs₁, []⟩) h6 ?_
    have hzero : w.ctx + signExtendOff 0 = w.ctx := UInt64.add_zero _
    simp [Window.env, Window.mem, hzero]
  have hexec₃ : (Op.ldx 8 3 6 8).exec (w.env helper) ⟨2, regs₂, []⟩ =
      .ok (.next ⟨3, regs₃, []⟩) := by
    have h6 : regs₂ 6 = some w.ctx := by simp [regs₂, regs₁]
    refine exec_ldx (s := ⟨2, regs₂, []⟩) h6 ?_
    have height : w.ctx + signExtendOff 8 = w.ctx + 8 := rfl
    simp [Window.env, Window.mem, height, hne]
  refine ⟨regs₃, ⟨by simp [regs₃, regs₂], Function.update_self _ _ _⟩, ?_⟩
  rw [runFrom_next hmov hexec₁, runFrom_next hdata hexec₂, runFrom_next hend hexec₃]

end Blocks

/-! ## The result of the program -/

/-- What the program returns on a window of bytes. -/
def ebpfResult (workers : ℕ) (bytes : List UInt8) : ℕ :=
  if bytes.length < 1 then 0
  else if bytes.getD 0 0 &&& 0x80 = 0 then
    if bytes.length < 3 then 0 else prefixAt bytes 1 % workers
  else if bytes.length < 6 then 0
  else if (bytes.getD 5 0).toNat < 2 then 0
  else if bytes.length < 8 then 0
  else prefixAt bytes 6 % workers

theorem ebpfResult_lt {workers : ℕ} (hw : 1 ≤ workers) (bytes : List UInt8) :
    ebpfResult workers bytes < workers := by
  have hmod : ∀ v, v % workers < workers := fun v => Nat.mod_lt v hw
  unfold ebpfResult
  repeat' split
  all_goals first | exact hw | exact hmod _

section Program

variable {workers : ℕ} {w : Window} {helper : Call → UInt64} {regs : Reg → Option UInt64}

/-- Every failed check jumps to the last two instructions. -/
theorem run_giveUp (fuel : ℕ) :
    runFrom (w.env helper) (quicReuseportEbpf workers) (fuel + 2) ⟨32, regs, []⟩ =
      .exit (UInt64.ofNat 0) [] :=
  run_default rfl rfl

theorem fetch_mod {pc : ℕ}
    (hpc : (quicReuseportEbpf workers)[pc]? = some ⟨0x97, 0, 0, Int32.ofNat workers⟩) :
    fetch (quicReuseportEbpf workers) pc = .ok (.alu .mod 0 (.imm (Int32.ofNat workers))) :=
  fetch_of_decode hpc (decode_modImm _)

/-- Short header: three bytes, the prefix at offset 1. -/
theorem run_shortHeader (hw : 1 ≤ workers) (hw' : workers ≤ 65536) (h : Loaded w regs) :
    runFrom (w.env helper) (quicReuseportEbpf workers) 25 ⟨23, regs, []⟩ =
      .exit (UInt64.ofNat
        (if w.bytes.length < 3 then 0 else prefixAt w.bytes 1 % workers)) [] := by
  let go := runFrom (w.env helper) (quicReuseportEbpf workers)
  have hthree : ∃ regs', Loaded w regs' ∧ go 25 ⟨23, regs, []⟩ =
      go 22 ⟨if w.bytes.length < 3 then 32 else 26, regs', []⟩ :=
    run_boundsCheck 4 3 3 6 32 (by decide) (by decide) (by decide) rfl rfl rfl rfl rfl h
  rcases hthree with ⟨regs, hregs, hthree⟩
  show go 25 _ = _
  rw [hthree]
  by_cases hlen : w.bytes.length < 3
  · rw [if_pos hlen, if_pos hlen]
    exact run_giveUp 20
  · rw [if_neg hlen, if_neg hlen]
    exact run_prefix hw hw' 1 1 2 rfl rfl rfl rfl rfl rfl (fetch_mod rfl) rfl hregs (by omega)

/-- Long header: the length byte at offset 5, the prefix at offset 6. -/
theorem run_longHeader (hw : 1 ≤ workers) (hw' : workers ≤ 65536) (h : Loaded w regs) :
    runFrom (w.env helper) (quicReuseportEbpf workers) 25 ⟨9, regs, []⟩ =
      .exit (UInt64.ofNat
        (if w.bytes.length < 6 then 0
        else if (w.bytes.getD 5 0).toNat < 2 then 0
        else if w.bytes.length < 8 then 0
        else prefixAt w.bytes 6 % workers)) [] := by
  let go := runFrom (w.env helper) (quicReuseportEbpf workers)
  have hsix : ∃ regs', Loaded w regs' ∧ go 25 ⟨9, regs, []⟩ =
      go 22 ⟨if w.bytes.length < 6 then 32 else 12, regs', []⟩ :=
    run_boundsCheck 4 6 6 20 32 (by decide) (by decide) (by decide) rfl rfl rfl rfl rfl h
  rcases hsix with ⟨regs, hregs, hsix⟩
  show go 25 _ = _
  rw [hsix]
  by_cases hlen : w.bytes.length < 6
  · rw [if_pos hlen, if_pos hlen]
    exact run_giveUp 20
  rw [if_neg hlen, if_neg hlen]
  have hbyte : ∃ regs', Loaded w regs' ∧ go 22 ⟨12, regs, []⟩ =
      go 20 ⟨if (w.bytes.getD 5 0).toNat < 2 then 32 else 14, regs', []⟩ :=
    run_lengthByte 18 32 rfl rfl rfl hregs (by omega)
  rcases hbyte with ⟨regs, hregs, hbyte⟩
  rw [hbyte]
  by_cases htwo : (w.bytes.getD 5 0).toNat < 2
  · rw [if_pos htwo, if_pos htwo]
    exact run_giveUp 18
  rw [if_neg htwo, if_neg htwo]
  have height : ∃ regs', Loaded w regs' ∧ go 20 ⟨14, regs, []⟩ =
      go 17 ⟨if w.bytes.length < 8 then 32 else 17, regs', []⟩ :=
    run_boundsCheck 5 8 8 15 32 (by decide) (by decide) (by decide) rfl rfl rfl rfl rfl hregs
  rcases height with ⟨regs, hregs, height⟩
  rw [height]
  by_cases hlen : w.bytes.length < 8
  · rw [if_pos hlen, if_pos hlen]
    exact run_giveUp 15
  · rw [if_neg hlen, if_neg hlen]
    exact run_prefix hw hw' 6 6 7 rfl rfl rfl rfl rfl rfl (fetch_mod rfl) rfl hregs (by omega)

end Program

/-- The program runs to its `EXIT` on every window, without a fault, a call or a lack of
fuel, and returns `ebpfResult`. -/
theorem run_quicReuseportEbpf {workers : ℕ} (hw : 1 ≤ workers) (hw' : workers ≤ 65536)
    (w : Window) (helper : Call → UInt64) (frame : UInt64) :
    run (w.env helper) (quicReuseportEbpf workers) w.ctx frame =
      .exit (UInt64.ofNat (ebpfResult workers w.bytes)) [] := by
  let go := runFrom (w.env helper) (quicReuseportEbpf workers)
  have hentry : ∃ regs, Loaded w regs ∧
      go 34 ⟨0, entry w.ctx frame, []⟩ = go 31 ⟨3, regs, []⟩ := run_entry frame rfl rfl rfl
  rcases hentry with ⟨regs, hregs, hentry⟩
  have hone : ∃ regs', Loaded w regs' ∧ go 31 ⟨3, regs, []⟩ =
      go 28 ⟨if w.bytes.length < 1 then 32 else 6, regs', []⟩ :=
    run_boundsCheck 4 1 1 26 32 (by decide) (by decide) (by decide) rfl rfl rfl rfl rfl hregs
  rcases hone with ⟨regs, hregs, hone⟩
  show go 34 ⟨0, entry w.ctx frame, []⟩ = _
  unfold ebpfResult
  rw [hentry, hone]
  by_cases hlen : w.bytes.length < 1
  · rw [if_pos hlen, if_pos hlen]
    exact run_giveUp 26
  rw [if_neg hlen, if_neg hlen]
  have hform : ∃ regs', Loaded w regs' ∧ go 28 ⟨6, regs, []⟩ =
      go 25 ⟨if w.bytes.getD 0 0 &&& 0x80 = 0 then 23 else 9, regs', []⟩ :=
    run_headerForm 14 23 rfl rfl rfl rfl hregs (by omega)
  rcases hform with ⟨regs, hregs, hform⟩
  rw [hform]
  by_cases hbit : w.bytes.getD 0 0 &&& 0x80 = 0
  · rw [if_pos hbit, if_pos hbit]
    exact run_shortHeader hw hw' hregs
  · rw [if_neg hbit, if_neg hbit]
    exact run_longHeader hw hw' hregs

/-! ## On the payload -/

/-- On a packet that the router accepts, the program returns the router's worker. -/
theorem ebpfResult_of_routed {bytes : List UInt8} {workers v : ℕ}
    (hroute : quicWorkerIndex bytes workers = some v) : ebpfResult workers bytes = v := by
  obtain ⟨-, hshort | hlong⟩ := quicWorkerIndex_eq_some_iff.mp hroute
  · obtain ⟨b, hi, lo, rest, rfl, hbit, rfl⟩ := hshort
    have hlen : ¬ (b :: hi :: lo :: rest).length < 3 := by simp
    have hone : ¬ (b :: hi :: lo :: rest).length < 1 := by simp
    rw [ebpfResult, if_neg hone, if_pos (by simpa using hbit), if_neg hlen]
    rfl
  · obtain ⟨b, v₁, v₂, v₃, v₄, len, hi, lo, rest, rfl, hbit, htwo, -, rfl⟩ := hlong
    have hlen : ∀ k ≤ 8,
        ¬ (b :: v₁ :: v₂ :: v₃ :: v₄ :: len :: hi :: lo :: rest).length < k := by
      intro k hk
      simp only [List.length_cons]
      omega
    have hbyte : ¬ ((b :: v₁ :: v₂ :: v₃ :: v₄ :: len :: hi :: lo :: rest).getD 5 0).toNat < 2 :=
      Nat.not_lt.mpr htwo
    rw [ebpfResult, if_neg (hlen 1 (by decide)), if_neg (by simpa using hbit),
      if_neg (hlen 6 (by decide)), if_neg hbyte, if_neg (hlen 8 (by decide))]
    rfl

/-- The packets on which the program gives up. -/
def Unroutable (bytes : List UInt8) : Prop :=
  bytes = [] ∨
    (∃ b, bytes[0]? = some b ∧ b &&& 0x80 = 0 ∧ bytes.length < 3) ∨
    ∃ b, bytes[0]? = some b ∧ b &&& 0x80 ≠ 0 ∧
      (bytes.length < 8 ∨ ∃ len, bytes[5]? = some len ∧ len.toNat < 2)

theorem ebpfResult_of_unroutable {bytes : List UInt8} (h : Unroutable bytes) (workers : ℕ) :
    ebpfResult workers bytes = 0 := by
  have hget : ∀ i b, bytes[i]? = some b → bytes.getD i 0 = b := by
    intro i b hb
    rw [List.getD_eq_getElem?_getD, hb]
    rfl
  unfold ebpfResult
  rcases h with rfl | ⟨b, hb, hbit, hlen⟩ | ⟨b, hb, hbit, hor⟩
  · rfl
  · rw [hget 0 b hb, if_pos hbit, if_pos hlen, ite_self]
  · rw [hget 0 b hb, if_neg hbit]
    rcases hor with hlen | ⟨len, hlen, htwo⟩
    · rw [if_pos hlen]
      simp only [ite_self]
    · rw [hget 5 len hlen, if_pos htwo]
      simp only [ite_self]

/-- The program is safe and computes the router. On every window, including the empty
one, it reaches its `EXIT`: it never reads a register before writing it, a byte outside
the window, or an instruction outside the program, for each of these would be a fault.
The result is below the worker count; it is the router's answer where there is one, and
zero on the packets that are too short. -/
theorem ebpf_computes_router {workers : ℕ} (hw : 1 ≤ workers) (hw' : workers ≤ 65536)
    (w : Window) (helper : Call → UInt64) (frame : UInt64) :
    ∃ r0, run (w.env helper) (quicReuseportEbpf workers) w.ctx frame = .exit r0 [] ∧
      r0.toNat < workers ∧
      (∀ v, quicWorkerIndex w.bytes workers = some v → r0.toNat = v) ∧
      (Unroutable w.bytes → r0 = 0) := by
  have hlt := ebpfResult_lt hw w.bytes
  have hnat : (UInt64.ofNat (ebpfResult workers w.bytes)).toNat = ebpfResult workers w.bytes :=
    toNat_ofNat_of_lt (by omega)
  refine ⟨_, run_quicReuseportEbpf hw hw' w helper frame, ?_, ?_, ?_⟩
  · rw [hnat]
    exact hlt
  · intro v hroute
    rw [hnat]
    exact ebpfResult_of_routed hroute
  · intro hun
    rw [ebpfResult_of_unroutable hun]
    rfl

/-- A window at `0x1000` with the given bytes. -/
def Window.at4096 (bytes : List UInt8) (h : bytes.length ≤ 65536) : Window where
  ctx := 0
  data := 0x1000
  bytes := bytes
  room := by
    have hdata : (0x1000 : UInt64).toNat = 4096 := rfl
    omega

/-- A long header for worker 3 of four, and the empty window. -/
theorem ebpf_computes_router_instances :
    (∃ r0, run ((Window.at4096 [0xe0, 0, 0, 0, 1, 4, 1, 3, 9, 9] (by decide)).env fun _ => 0)
        (quicReuseportEbpf 4) 0 0 = .exit r0 [] ∧ r0.toNat = 3) ∧
      ∃ r0, run ((Window.at4096 [] (by decide)).env fun _ => 0) (quicReuseportEbpf 65536) 0 0 =
        .exit r0 [] ∧ r0 = 0 := by
  constructor
  · obtain ⟨r0, hrun, -, hroute, -⟩ := ebpf_computes_router (show 1 ≤ 4 by decide) (by decide)
      (Window.at4096 [0xe0, 0, 0, 0, 1, 4, 1, 3, 9, 9] (by decide)) (fun _ => 0) 0
    exact ⟨r0, hrun, hroute 3 (by decide)⟩
  · obtain ⟨r0, hrun, -, -, hun⟩ := ebpf_computes_router (show 1 ≤ 65536 by decide)
      (by decide) (Window.at4096 [] (by decide)) (fun _ => 0) 0
    exact ⟨r0, hrun, hun (Or.inl rfl)⟩

/-! ## Under the kernel's ABI

What `linux/bpf.h` says of `BPF_PROG_TYPE_SK_REUSEPORT` is assumed here: `data` points at
the UDP header and `data_end` past the directly accessible bytes; the result is
`SK_PASS` or the datagram is dropped; a socket is chosen by calling
`bpf_sk_select_reuseport`, and without a call by the flow hash. -/

/-- `BPF_PROG_TYPE_SK_REUSEPORT`. -/
def BPF_PROG_TYPE_SK_REUSEPORT : UInt32 := 21

/-- `BpfProgLoadAttr`, without the fields that `load_quic_reuseport_ebpf` leaves at their
defaults. -/
structure BpfProgLoadAttr where
  progType : UInt32
  insnCnt : UInt32
  insns : List Insn
  license : String

/-- What `load_quic_reuseport_ebpf` gives to the `bpf` system call. -/
def quicReuseportProgLoadAttr (workers : ℕ) : BpfProgLoadAttr where
  progType := BPF_PROG_TYPE_SK_REUSEPORT
  insnCnt := UInt32.ofNat (quicReuseportEbpf workers).length
  insns := quicReuseportEbpf workers
  license := "GPL"

/-- A UDP header. -/
structure UdpHeader where
  source : UInt16
  dest : UInt16
  length : UInt16
  checksum : UInt16
deriving DecidableEq, Repr

/-- The two bytes of a header field, in network byte order. -/
def beBytes (field : UInt16) : List UInt8 :=
  [UInt8.ofNat (field.toNat / 256), UInt8.ofNat (field.toNat % 256)]

def UdpHeader.bytes (h : UdpHeader) : List UInt8 :=
  beBytes h.source ++ beBytes h.dest ++ beBytes h.length ++ beBytes h.checksum

/-- A datagram for a reuse-port group, as the program is run on it: where its context
and its header are, how many of its bytes are directly accessible (the header always
is), and the index of the socket that the flow hash picks. -/
structure SkReuseport where
  header : UdpHeader
  payload : List UInt8
  accessible : ℕ
  hash : ℕ
  ctx : UInt64
  data : UInt64
  frame : UInt64
  header_le : 8 ≤ accessible
  room : data.toNat + max (header.bytes ++ payload).length 8 < 2 ^ 64

namespace SkReuseport

/-- The window from the UDP header to the end of the accessible bytes. -/
def window (d : SkReuseport) : Window where
  ctx := d.ctx
  data := d.data
  bytes := (d.header.bytes ++ d.payload).take d.accessible
  room := by
    have := d.room
    have : ((d.header.bytes ++ d.payload).take d.accessible).length ≤
        (d.header.bytes ++ d.payload).length := List.length_take_le' _ _
    omega

/-- `SK_PASS`. -/
def skPass : UInt64 := 1

/-- The number of the helper `bpf_sk_select_reuseport`. -/
def skSelectReuseport : Int32 := 82

/-- The socket that receives the datagram after a run of the program, or `none` if the
datagram is dropped. `selected` is what a call of the helper selects. -/
def socketOf (selected : Call → Option ℕ) (hash : ℕ) : Outcome → Option ℕ
  | .exit value calls =>
      if value = skPass then
        match (calls.filter (·.helper = skSelectReuseport)).getLast? with
        | some call => selected call
        | none => some hash
      else none
  | .fault _ => none
  | .outOfFuel => none

/-- The socket that receives the datagram when a program of this type is attached. -/
def delivers (d : SkReuseport) (attr : BpfProgLoadAttr) (helper : Call → UInt64)
    (selected : Call → Option ℕ) : Option ℕ :=
  if attr.progType = BPF_PROG_TYPE_SK_REUSEPORT then
    socketOf selected d.hash (run (d.window.env helper) attr.insns d.ctx d.frame)
  else none

end SkReuseport

/-- The headers on which the program returns `SK_PASS`. It takes the source port for a
first byte and, below port `0x8000`, two bytes of the ports for a prefix; from `0x8000`
on it takes the low byte of the length for a DCID length and the checksum for a prefix. -/
def UdpHeader.Passes (h : UdpHeader) (workers : ℕ) : Prop :=
  (h.source.toNat < 0x8000 ∧
    (h.source.toNat % 256 * 256 + h.dest.toNat / 256) % workers = 1) ∨
  (0x8000 ≤ h.source.toNat ∧ 2 ≤ h.length.toNat % 256 ∧ h.checksum.toNat % workers = 1)

instance (h : UdpHeader) (workers : ℕ) : Decidable (h.Passes workers) :=
  inferInstanceAs (Decidable (_ ∨ _))

/-- The window begins with the whole UDP header. -/
theorem SkReuseport.bytes_window (d : SkReuseport) :
    ∃ rest, d.window.bytes = d.header.bytes ++ rest := by
  have hlen : d.header.bytes.length = 8 := rfl
  refine ⟨d.payload.take (d.accessible - 8), ?_⟩
  show (d.header.bytes ++ d.payload).take d.accessible = _
  rw [List.take_append, hlen, List.take_of_length_le (hlen ▸ d.header_le)]

/-- Bit 7 of a byte. -/
theorem and_bit7_eq_zero_iff (b : UInt8) : b &&& 0x80 = 0 ↔ b.toNat < 128 := by
  have hall : ∀ x < 256, x &&& 128 = 0 ↔ x < 128 := by decide +kernel
  rw [← UInt8.toNat_inj, UInt8.toNat_and]
  exact hall b.toNat b.toNat_lt

theorem toNat_high (field : UInt16) :
    (UInt8.ofNat (field.toNat / 256)).toNat = field.toNat / 256 := by
  have := field.toNat_lt
  rw [UInt8.toNat_ofNat', Nat.mod_eq_of_lt (by omega)]

theorem toNat_low (field : UInt16) :
    (UInt8.ofNat (field.toNat % 256)).toNat = field.toNat % 256 := by
  rw [UInt8.toNat_ofNat', Nat.mod_eq_of_lt (by omega)]

/-- What the program returns on a window that begins with a UDP header. -/
theorem ebpfResult_header (h : UdpHeader) (rest : List UInt8) (workers : ℕ) :
    ebpfResult workers (h.bytes ++ rest) =
      if h.source.toNat < 0x8000 then
        (h.source.toNat % 256 * 256 + h.dest.toNat / 256) % workers
      else if h.length.toNat % 256 < 2 then 0
      else h.checksum.toNat % workers := by
  have hlen : ∀ k ≤ 8, ¬ (h.bytes ++ rest).length < k := by
    intro k hk
    have : h.bytes.length = 8 := rfl
    rw [List.length_append, this]
    omega
  have hfirst : (h.bytes ++ rest).getD 0 0 &&& 0x80 = 0 ↔ h.source.toNat < 0x8000 := by
    show UInt8.ofNat (h.source.toNat / 256) &&& 0x80 = 0 ↔ _
    rw [and_bit7_eq_zero_iff, toNat_high]
    omega
  have hshort : prefixAt (h.bytes ++ rest) 1 =
      h.source.toNat % 256 * 256 + h.dest.toNat / 256 := by
    show (UInt8.ofNat (h.source.toNat % 256)).toNat * 256 +
      (UInt8.ofNat (h.dest.toNat / 256)).toNat = _
    rw [toNat_low, toNat_high]
  have hbyte : ((h.bytes ++ rest).getD 5 0).toNat = h.length.toNat % 256 := toNat_low h.length
  have hlong : prefixAt (h.bytes ++ rest) 6 = h.checksum.toNat := by
    show (UInt8.ofNat (h.checksum.toNat / 256)).toNat * 256 +
      (UInt8.ofNat (h.checksum.toNat % 256)).toNat = _
    rw [toNat_low, toNat_high]
    omega
  rw [ebpfResult, if_neg (hlen 1 (by decide)), if_neg (hlen 3 (by decide)),
    if_neg (hlen 6 (by decide)), if_neg (hlen 8 (by decide)), hshort, hbyte, hlong]
  simp only [hfirst]

/-- The program returns `SK_PASS` on the headers that pass. -/
theorem ebpfResult_eq_one_iff (h : UdpHeader) (rest : List UInt8) (workers : ℕ) :
    ebpfResult workers (h.bytes ++ rest) = 1 ↔ h.Passes workers := by
  rw [ebpfResult_header]
  unfold UdpHeader.Passes
  by_cases hsource : h.source.toNat < 0x8000
  · simp only [hsource, if_true, true_and, Nat.not_le.mpr hsource, false_and, or_false]
  · simp only [hsource, if_false, false_and, false_or, Nat.not_lt.mp hsource, true_and]
    by_cases hlen : h.length.toNat % 256 < 2
    · simp [hlen, Nat.not_le.mpr hlen]
    · simp [hlen, Nat.not_lt.mp hlen]

/-- What the kernel does with a datagram under this program: the flow hash picks a socket
or the datagram is dropped, and the header alone decides which. -/
theorem delivers_quicReuseport {workers : ℕ} (hw : 1 ≤ workers) (hw' : workers ≤ 65536)
    (d : SkReuseport) (helper : Call → UInt64) (selected : Call → Option ℕ) :
    d.delivers (quicReuseportProgLoadAttr workers) helper selected =
      if d.header.Passes workers then some d.hash else none := by
  obtain ⟨rest, hbytes⟩ := d.bytes_window
  have hrun : run (d.window.env helper) (quicReuseportEbpf workers) d.ctx d.frame =
      .exit (UInt64.ofNat (ebpfResult workers (d.header.bytes ++ rest))) [] := by
    rw [← hbytes]
    exact run_quicReuseportEbpf hw hw' d.window helper d.frame
  have hlt := ebpfResult_lt hw (d.header.bytes ++ rest)
  have hpass : UInt64.ofNat (ebpfResult workers (d.header.bytes ++ rest)) = SkReuseport.skPass ↔
      d.header.Passes workers := by
    rw [← ebpfResult_eq_one_iff d.header rest, ← UInt64.toNat_inj, toNat_ofNat_of_lt (by omega)]
    rfl
  show SkReuseport.socketOf selected d.hash
    (run (d.window.env helper) (quicReuseportEbpf workers) d.ctx d.frame) = _
  rw [hrun]
  simp only [SkReuseport.socketOf, hpass, List.filter_nil, List.getLast?_nil]

/-- The kernel and the router. A datagram whose payload the router sends to some worker
is delivered to that worker's socket exactly if its UDP header happens to make the
program return `SK_PASS`, and the kernel's flow hash happens to pick that socket: what
the program computes is no index for the kernel, and it is not computed from the
payload. -/
theorem ebpf_delivers_iff {workers : ℕ} (hw : 1 ≤ workers) (hw' : workers ≤ 65536)
    (d : SkReuseport) (helper : Call → UInt64) (selected : Call → Option ℕ)
    (hroute : (quicWorkerIndex d.payload workers).isSome = true) :
    d.delivers (quicReuseportProgLoadAttr workers) helper selected =
        quicWorkerIndex d.payload workers ↔
      d.header.Passes workers ∧ quicWorkerIndex d.payload workers = some d.hash := by
  obtain ⟨w, hworker⟩ := Option.isSome_iff_exists.mp hroute
  rw [delivers_quicReuseport hw hw', hworker]
  by_cases hpasses : d.header.Passes workers
  · simp [hpasses, eq_comm]
  · -- a verdict other than `SK_PASS`: the datagram is dropped
    simp [hpasses]

/-- A datagram from port 50000 to port 4433 with a payload of three bytes, a short header
for worker 2. -/
def SkReuseport.short (checksum : UInt16) (hash : ℕ) : SkReuseport where
  header := ⟨50000, 4433, 11, checksum⟩
  payload := [0x40, 0, 2]
  accessible := 11
  hash := hash
  ctx := 0
  data := 0x1000
  frame := 0
  header_le := by decide
  room := show 0x1000 + max 11 8 < 2 ^ 64 by decide

/-- The program drops a datagram that the router sends to worker 2 of four. -/
theorem ebpf_not_delivered :
    quicWorkerIndex (SkReuseport.short 0x1234 2).payload 4 = some 2 ∧
      (SkReuseport.short 0x1234 2).delivers (quicReuseportProgLoadAttr 4) (fun _ => 0)
        (fun _ => none) = none := by
  constructor
  · decide
  · rw [delivers_quicReuseport (by decide) (by decide)]
    decide

/-- With another checksum the program returns `SK_PASS`, and the flow hash decides. -/
theorem ebpf_delivers_iff_short :
    (SkReuseport.short 0x1235 2).delivers (quicReuseportProgLoadAttr 4) (fun _ => 0)
        (fun _ => none) = some 2 ∧
      (SkReuseport.short 0x1235 3).delivers (quicReuseportProgLoadAttr 4) (fun _ => 0)
        (fun _ => none) ≠ some 2 := by
  have hiff : ∀ hash, (SkReuseport.short 0x1235 hash).delivers (quicReuseportProgLoadAttr 4)
      (fun _ => 0) (fun _ => none) = some 2 ↔
        (SkReuseport.short 0x1235 hash).header.Passes 4 ∧ some 2 = some hash :=
    fun hash => ebpf_delivers_iff (by decide) (by decide) (SkReuseport.short 0x1235 hash)
      (fun _ => 0) (fun _ => none) rfl
  constructor
  · rw [hiff]
    decide
  · rw [ne_eq, hiff]
    decide

end ReusePort
