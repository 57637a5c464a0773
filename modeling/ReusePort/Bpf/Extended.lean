import Mathlib.Algebra.Group.Nat.Defs
import Mathlib.Data.Int.Notation
import Mathlib.Data.List.Basic
import Mathlib.Logic.Function.Basic

/-!
# ReusePort.Bpf.Extended — extended BPF

The 64-bit eBPF machine: eleven registers, relative jumps, loads from memory, calls of
helpers. Instructions are kept in their binary form (`Insn`, the kernel's
`struct bpf_insn`) and decoded by `Insn.decode`. The fragment has the 64-bit
arithmetic, the 64-bit jumps, register-relative loads, calls and `EXIT`; stores, 32-bit
arithmetic, atomic operations and wide immediates do not decode.

Whatever the kernel's verifier must rule out ends a run with a `Fault`: a register that
is read before it was written, an address that the memory does not have, a program
counter outside the program, an instruction that does not decode. So a run that ends
with `Outcome.exit` did nothing of this kind. Memory and helpers are parameters.

* `runFrom_next`, `runFrom_exit` — one step of a run;
* `exec_mov`, `exec_alu`, `exec_ldx`, `exec_jump` — what an instruction does when its
  operands are there.
-/

namespace Bpf.Extended

/-- `struct bpf_insn`: the two register numbers share a byte. -/
structure Insn where
  code : UInt8
  dstSrc : UInt8
  off : Int16
  imm : Int32
deriving DecidableEq, Repr

/-- The registers `r0` to `r10`. -/
abbrev Reg := Fin 11

inductive AluOp where
  | add | sub | mul | div | or | and | lsh | rsh | mod | xor | arsh
deriving DecidableEq, Repr

inductive Cond where
  | eq | gt | ge | set | ne | sgt | sge | lt | le | slt | sle
deriving DecidableEq, Repr

/-- The second operand: the immediate of the instruction, or a register. -/
inductive Src where
  | imm (k : Int32)
  | reg (r : Reg)
deriving DecidableEq, Repr

/-- Decoded instructions. The size of a load is in bytes. -/
inductive Op where
  | mov (dst : Reg) (src : Src)
  | alu (op : AluOp) (dst : Reg) (src : Src)
  | neg (dst : Reg)
  | ldx (size : ℕ) (dst src : Reg) (off : Int16)
  | jumpAlways (off : Int16)
  | jump (cond : Cond) (dst : Reg) (src : Src) (off : Int16)
  | call (helper : Int32)
  | exit
deriving DecidableEq, Repr

/-! ## Decoding -/

/-- A register number of four bits. -/
def reg? (n : UInt8) : Option Reg :=
  if h : n.toNat < 11 then some ⟨n.toNat, h⟩ else none

def Insn.dst? (i : Insn) : Option Reg := reg? (i.dstSrc &&& 0x0f)

def Insn.srcReg? (i : Insn) : Option Reg := reg? (i.dstSrc >>> 4)

/-- The operand of an arithmetic or jump instruction: bit `0x08` selects the register. -/
def Insn.src? (i : Insn) : Option Src :=
  if i.code &&& 0x08 = 0 then some (.imm i.imm) else i.srcReg?.map .reg

/-- The operation bits `0xf0` of arithmetic. -/
def aluOp? (code : UInt8) : Option AluOp :=
  if code &&& 0xf0 = 0x00 then some .add
  else if code &&& 0xf0 = 0x10 then some .sub
  else if code &&& 0xf0 = 0x20 then some .mul
  else if code &&& 0xf0 = 0x30 then some .div
  else if code &&& 0xf0 = 0x40 then some .or
  else if code &&& 0xf0 = 0x50 then some .and
  else if code &&& 0xf0 = 0x60 then some .lsh
  else if code &&& 0xf0 = 0x70 then some .rsh
  else if code &&& 0xf0 = 0x90 then some .mod
  else if code &&& 0xf0 = 0xa0 then some .xor
  else if code &&& 0xf0 = 0xc0 then some .arsh
  else none

/-- The operation bits `0xf0` of a conditional jump. -/
def cond? (code : UInt8) : Option Cond :=
  if code &&& 0xf0 = 0x10 then some .eq
  else if code &&& 0xf0 = 0x20 then some .gt
  else if code &&& 0xf0 = 0x30 then some .ge
  else if code &&& 0xf0 = 0x40 then some .set
  else if code &&& 0xf0 = 0x50 then some .ne
  else if code &&& 0xf0 = 0x60 then some .sgt
  else if code &&& 0xf0 = 0x70 then some .sge
  else if code &&& 0xf0 = 0xa0 then some .lt
  else if code &&& 0xf0 = 0xb0 then some .le
  else if code &&& 0xf0 = 0xc0 then some .slt
  else if code &&& 0xf0 = 0xd0 then some .sle
  else none

/-- The size bits `0x18` of a load. -/
def loadSize (code : UInt8) : ℕ :=
  if code &&& 0x18 = 0x00 then 4
  else if code &&& 0x18 = 0x08 then 2
  else if code &&& 0x18 = 0x10 then 1
  else 8

def Insn.decodeAlu (i : Insn) : Option Op := do
  let dst ← i.dst?
  if i.code &&& 0xf0 = 0x80 then return .neg dst
  else
    let src ← i.src?
    if i.code &&& 0xf0 = 0xb0 then return .mov dst src
    else return .alu (← aluOp? i.code) dst src

def Insn.decodeJmp (i : Insn) : Option Op := do
  if i.code &&& 0xf0 = 0x00 then return .jumpAlways i.off
  else if i.code &&& 0xf0 = 0x80 then return .call i.imm
  else if i.code &&& 0xf0 = 0x90 then return .exit
  else return .jump (← cond? i.code) (← i.dst?) (← i.src?) i.off

/-- The instruction class is in the bits `0x07`, the mode of a load in `0xe0`. -/
def Insn.decode (i : Insn) : Option Op :=
  if i.code &&& 0x07 = 0x07 then i.decodeAlu
  else if i.code &&& 0x07 = 0x05 then i.decodeJmp
  else if i.code &&& 0x07 = 0x01 ∧ i.code &&& 0xe0 = 0x60 then do
    return .ldx (loadSize i.code) (← i.dst?) (← i.srcReg?) i.off
  else none

/-! ## Semantics -/

/-- Immediates and offsets are sign-extended to 64 bits. -/
def signExtend (k : Int32) : UInt64 := k.toInt64.toUInt64

def signExtendOff (off : Int16) : UInt64 := off.toInt64.toUInt64

/-- 64-bit arithmetic: a division by zero gives `0`, a remainder by zero leaves the
first operand, and shifts use the low six bits. -/
def AluOp.eval (op : AluOp) (a b : UInt64) : UInt64 :=
  match op with
  | .add => a + b
  | .sub => a - b
  | .mul => a * b
  | .div => if b = 0 then 0 else a / b
  | .or => a ||| b
  | .and => a &&& b
  | .lsh => a <<< (b &&& 63)
  | .rsh => a >>> (b &&& 63)
  | .mod => if b = 0 then a else a % b
  | .xor => a ^^^ b
  | .arsh => (a.toInt64 >>> (b &&& 63).toInt64).toUInt64

def Cond.test (cond : Cond) (a b : UInt64) : Bool :=
  match cond with
  | .eq => a = b
  | .gt => b < a
  | .ge => b ≤ a
  | .set => a &&& b ≠ 0
  | .ne => a ≠ b
  | .sgt => b.toInt64 < a.toInt64
  | .sge => b.toInt64 ≤ a.toInt64
  | .lt => a < b
  | .le => a ≤ b
  | .slt => a.toInt64 < b.toInt64
  | .sle => a.toInt64 ≤ b.toInt64

/-- A call of a helper, with the argument registers `r1` to `r5`. -/
structure Call where
  helper : Int32
  args : Fin 5 → Option UInt64

/-- What a program runs in: `mem addr size` is the value of the `size` bytes at `addr`,
if the program may read them; `helper` is the result of a call. -/
structure Env where
  mem : UInt64 → ℕ → Option UInt64
  helper : Call → UInt64

/-- A register without a value has not been written. `calls` are the calls so far. -/
structure State where
  pc : ℕ
  regs : Reg → Option UInt64
  calls : List Call

inductive Fault where
  | undecodable (pc : ℕ)
  | outside (pc : ℤ)
  | unwritten (r : Reg)
  | badAddress (addr : UInt64) (size : ℕ)
deriving DecidableEq, Repr

/-- What one instruction does: go on, or end with the value of `r0`. -/
inductive Effect where
  | next (s : State)
  | exit (value : UInt64)

def State.read (s : State) (r : Reg) : Except Fault UInt64 :=
  match s.regs r with
  | some v => .ok v
  | none => .error (.unwritten r)

/-- Write a register and go on with the next instruction. -/
def State.write (s : State) (r : Reg) (v : UInt64) : State :=
  { s with pc := s.pc + 1, regs := Function.update s.regs r (some v) }

/-- A jump by an offset relative to the next instruction. -/
def State.jumpBy (s : State) (off : Int16) : Except Fault State :=
  let target := (s.pc : ℤ) + 1 + off.toInt
  if target < 0 then .error (.outside target) else .ok { s with pc := target.toNat }

def Src.eval (src : Src) (s : State) : Except Fault UInt64 :=
  match src with
  | .imm k => .ok (signExtend k)
  | .reg r => s.read r

def load (env : Env) (addr : UInt64) (size : ℕ) : Except Fault UInt64 :=
  match env.mem addr size with
  | some v => .ok v
  | none => .error (.badAddress addr size)

/-- The registers after a call: `r0` has the result, the argument registers nothing. -/
def afterCall (regs : Reg → Option UInt64) (result : UInt64) (r : Reg) : Option UInt64 :=
  if r = 0 then some result else if r.val ≤ 5 then none else regs r

def Op.exec (env : Env) (op : Op) (s : State) : Except Fault Effect := do
  match op with
  | .mov dst src => return .next (s.write dst (← src.eval s))
  | .alu op dst src =>
      let a ← s.read dst
      let b ← src.eval s
      return .next (s.write dst (op.eval a b))
  | .neg dst => return .next (s.write dst (0 - (← s.read dst)))
  | .ldx size dst src off =>
      let base ← s.read src
      return .next (s.write dst (← load env (base + signExtendOff off) size))
  | .jumpAlways off => return .next (← s.jumpBy off)
  | .jump cond dst src off =>
      let a ← s.read dst
      let b ← src.eval s
      if cond.test a b then return .next (← s.jumpBy off)
      else return .next { s with pc := s.pc + 1 }
  | .call helper =>
      let call : Call := ⟨helper, fun i => s.regs ⟨i.val + 1, by omega⟩⟩
      return .next ⟨s.pc + 1, afterCall s.regs (env.helper call), s.calls ++ [call]⟩
  | .exit => return .exit (← s.read 0)

/-- How a run ends. -/
inductive Outcome where
  | exit (value : UInt64) (calls : List Call)
  | fault (fault : Fault)
  | outOfFuel

def fetch (program : List Insn) (pc : ℕ) : Except Fault Op :=
  match program[pc]? with
  | none => .error (.outside pc)
  | some i =>
      match i.decode with
      | none => .error (.undecodable pc)
      | some op => .ok op

def runFrom (env : Env) (program : List Insn) : ℕ → State → Outcome
  | 0, _ => .outOfFuel
  | fuel + 1, s =>
      match (do (← fetch program s.pc).exec env s : Except Fault Effect) with
      | .error f => .fault f
      | .ok (.exit value) => .exit value s.calls
      | .ok (.next s') => runFrom env program fuel s'

/-- The registers at entry: `r1` has the context and `r10` the frame pointer. -/
def entry (ctx frame : UInt64) (r : Reg) : Option UInt64 :=
  if r = 1 then some ctx else if r = 10 then some frame else none

/-- Run a program on a context, with as many steps as it has instructions: enough for a
program that only jumps forward. -/
def run (env : Env) (program : List Insn) (ctx frame : UInt64) : Outcome :=
  runFrom env program program.length ⟨0, entry ctx frame, []⟩

/-! ## Symbolic execution

A concrete program is executed by rewriting with the two rules of `runFrom`; the rules
of `exec` give their premises. -/

section Rules

variable {env : Env} {program : List Insn} {fuel : ℕ} {s s' : State} {op : Op}

theorem runFrom_next (hfetch : fetch program s.pc = .ok op)
    (hexec : op.exec env s = .ok (.next s')) :
    runFrom env program (fuel + 1) s = runFrom env program fuel s' := by
  have hstep : (do (← fetch program s.pc).exec env s : Except Fault Effect) = .ok (.next s') := by
    rw [hfetch]
    exact hexec
  rw [runFrom, hstep]

theorem runFrom_exit {value : UInt64} (hfetch : fetch program s.pc = .ok .exit)
    (hvalue : s.regs 0 = some value) :
    runFrom env program (fuel + 1) s = .exit value s.calls := by
  have hstep : (do (← fetch program s.pc).exec env s : Except Fault Effect) =
      .ok (.exit value) := by
    rw [hfetch]
    simp [Op.exec, State.read, hvalue, bind, Except.bind, pure, Except.pure]
  rw [runFrom, hstep]

theorem toNat_ofNat_of_lt {n : ℕ} (h : n < 2 ^ 64) : (UInt64.ofNat n).toNat = n := by
  rw [UInt64.toNat_ofNat', Nat.mod_eq_of_lt h]

theorem fetch_of_decode {i : Insn} {pc : ℕ} (hi : program[pc]? = some i)
    (hop : i.decode = some op) : fetch program pc = .ok op := by
  simp [fetch, hi, hop]

/-- A remainder by an immediate, whatever the immediate is. -/
theorem decode_modImm (k : Int32) : Insn.decode ⟨0x97, 0, 0, k⟩ = some (.alu .mod 0 (.imm k)) := by
  simp +decide [Insn.decode, Insn.decodeAlu, Insn.dst?, Insn.src?, reg?, aluOp?]

theorem signExtend_ofNat {n : ℕ} (h : n < 2 ^ 31) :
    signExtend (Int32.ofNat n) = UInt64.ofNat n := by
  have hint : (Int32.ofNat n).toInt = n := Int32.toInt_ofNat_of_lt h
  have hlong : (Int32.ofNat n).toInt64 = Int64.ofNat n := by
    apply Int64.toInt_inj.mp
    rw [Int32.toInt_toInt64, hint, Int64.toInt_ofNat_of_lt (by omega)]
  unfold signExtend
  rw [hlong]
  exact Int64.toUInt64_ofNat'

theorem Src.eval_reg {r : Reg} {v : UInt64} (h : s.regs r = some v) :
    (Src.reg r).eval s = .ok v := by
  simp [Src.eval, State.read, h]

theorem exec_mov {dst : Reg} {src : Src} {v : UInt64} (hsrc : src.eval s = .ok v) :
    (Op.mov dst src).exec env s = .ok (.next (s.write dst v)) := by
  simp [Op.exec, hsrc, bind, Except.bind, pure, Except.pure]

theorem exec_alu {op : AluOp} {dst : Reg} {src : Src} {a b : UInt64}
    (hdst : s.regs dst = some a) (hsrc : src.eval s = .ok b) :
    (Op.alu op dst src).exec env s = .ok (.next (s.write dst (op.eval a b))) := by
  simp [Op.exec, State.read, hdst, hsrc, bind, Except.bind, pure, Except.pure]

theorem exec_ldx {size : ℕ} {dst src : Reg} {off : Int16} {base v : UInt64}
    (hsrc : s.regs src = some base) (hmem : env.mem (base + signExtendOff off) size = some v) :
    (Op.ldx size dst src off).exec env s = .ok (.next (s.write dst v)) := by
  simp [Op.exec, State.read, load, hsrc, hmem, bind, Except.bind, pure, Except.pure]

/-- A jump goes to its target if the condition holds, and to the next instruction
otherwise. -/
theorem exec_jump {cond : Cond} {dst : Reg} {src : Src} {off : Int16} {a b : UInt64}
    (target : ℕ) (hdst : s.regs dst = some a) (hsrc : src.eval s = .ok b)
    (htarget : (s.pc : ℤ) + 1 + off.toInt = target) :
    (Op.jump cond dst src off).exec env s =
      .ok (.next { s with pc := if cond.test a b then target else s.pc + 1 }) := by
  have hpos : ¬ (target : ℤ) < 0 := by omega
  by_cases hcond : cond.test a b = true
  · simp [Op.exec, State.read, hdst, hsrc, hcond, State.jumpBy, htarget, hpos, bind,
      Except.bind, pure, Except.pure]
  · simp [Op.exec, State.read, hdst, hsrc, hcond, bind, Except.bind, pure, Except.pure]

end Rules

end Bpf.Extended
