import Mathlib.Data.List.Basic

/-!
# ReusePort.Bpf.Classic — classic BPF

The classic BPF machine of the Linux socket filters: an accumulator `A`, an
index register `X`, forward jumps, and loads from the packet in network byte
order. A load outside the packet ends the program with result `0`, as does a
division by zero; arithmetic is modulo `2 ^ 32`.

Instructions are kept in their binary form (`Insn`, the kernel's
`struct sock_filter`) and decoded by `Insn.decode`. The scratch memory, the
`MSH` load and the kernel's ancillary loads are outside this fragment and do
not decode.

A program is run on its remaining length as fuel: every jump is forward, so a
program of `n` instructions takes at most `n` steps (`run` returns `none` only
for a program that runs off its end or does not decode).
-/

namespace Bpf.Classic

/-- `struct sock_filter`. -/
structure Insn where
  code : UInt16
  jt : UInt8
  jf : UInt8
  k : UInt32
deriving DecidableEq, Repr

inductive AluOp where
  | add | sub | mul | div | or | and | lsh | rsh | mod | xor
deriving DecidableEq, Repr

inductive Cond where
  | eq | gt | ge | set
deriving DecidableEq, Repr

/-- The second operand: the constant of the instruction, or `X`. -/
inductive Src where
  | const (k : UInt32)
  | index
deriving DecidableEq, Repr

/-- Decoded instructions. The size of a load is in bytes. -/
inductive Op where
  | ldAbs (size : ℕ) (k : UInt32)
  | ldInd (size : ℕ) (k : UInt32)
  | ldImm (k : UInt32)
  | ldLen
  | ldxImm (k : UInt32)
  | ldxLen
  | alu (op : AluOp) (src : Src)
  | neg
  | jumpAlways (k : UInt32)
  | jump (cond : Cond) (src : Src) (jt jf : UInt8)
  | retConst (k : UInt32)
  | retA
  | tax
  | txa
deriving DecidableEq, Repr

/-! ## Decoding -/

/-- The operand of an arithmetic or jump instruction: bit `0x08` selects `X`. -/
def Insn.src (i : Insn) : Src := if i.code &&& 0x08 = 0 then .const i.k else .index

/-- The size bits `0x18` of a load. -/
def loadSize (code : UInt16) : Option ℕ :=
  if code &&& 0x18 = 0x00 then some 4
  else if code &&& 0x18 = 0x08 then some 2
  else if code &&& 0x18 = 0x10 then some 1
  else none

/-- Loads into `A`: the mode bits are `0xe0`. -/
def Insn.decodeLd (i : Insn) : Option Op :=
  if i.code &&& 0xe0 = 0x20 then (loadSize i.code).map fun size => .ldAbs size i.k
  else if i.code &&& 0xe0 = 0x40 then (loadSize i.code).map fun size => .ldInd size i.k
  else if i.code &&& 0xe0 = 0x00 then some (.ldImm i.k)
  else if i.code &&& 0xe0 = 0x80 then some .ldLen
  else none

/-- Arithmetic: the operation bits are `0xf0`. -/
def Insn.decodeAlu (i : Insn) : Option Op :=
  if i.code &&& 0xf0 = 0x00 then some (.alu .add i.src)
  else if i.code &&& 0xf0 = 0x10 then some (.alu .sub i.src)
  else if i.code &&& 0xf0 = 0x20 then some (.alu .mul i.src)
  else if i.code &&& 0xf0 = 0x30 then some (.alu .div i.src)
  else if i.code &&& 0xf0 = 0x40 then some (.alu .or i.src)
  else if i.code &&& 0xf0 = 0x50 then some (.alu .and i.src)
  else if i.code &&& 0xf0 = 0x60 then some (.alu .lsh i.src)
  else if i.code &&& 0xf0 = 0x70 then some (.alu .rsh i.src)
  else if i.code &&& 0xf0 = 0x80 then some .neg
  else if i.code &&& 0xf0 = 0x90 then some (.alu .mod i.src)
  else if i.code &&& 0xf0 = 0xa0 then some (.alu .xor i.src)
  else none

/-- Jumps: the operation bits are `0xf0`. -/
def Insn.decodeJmp (i : Insn) : Option Op :=
  if i.code &&& 0xf0 = 0x00 then some (.jumpAlways i.k)
  else if i.code &&& 0xf0 = 0x10 then some (.jump .eq i.src i.jt i.jf)
  else if i.code &&& 0xf0 = 0x20 then some (.jump .gt i.src i.jt i.jf)
  else if i.code &&& 0xf0 = 0x30 then some (.jump .ge i.src i.jt i.jf)
  else if i.code &&& 0xf0 = 0x40 then some (.jump .set i.src i.jt i.jf)
  else none

/-- The instruction class is in the bits `0x07`. -/
def Insn.decode (i : Insn) : Option Op :=
  if i.code &&& 0x07 = 0x00 then i.decodeLd
  else if i.code &&& 0x07 = 0x01 then
    if i.code &&& 0xe0 = 0x00 then some (.ldxImm i.k)
    else if i.code &&& 0xe0 = 0x80 then some .ldxLen
    else none
  else if i.code &&& 0x07 = 0x04 then i.decodeAlu
  else if i.code &&& 0x07 = 0x05 then i.decodeJmp
  else if i.code &&& 0x07 = 0x06 then
    if i.code &&& 0x18 = 0x00 then some (.retConst i.k)
    else if i.code &&& 0x18 = 0x10 then some .retA
    else none
  else if i.code &&& 0x07 = 0x07 then
    if i.code &&& 0xf8 = 0x00 then some .tax
    else if i.code &&& 0xf8 = 0x80 then some .txa
    else none
  else none

/-! ## Semantics -/

/-- The registers. -/
structure Regs where
  a : UInt32
  x : UInt32
deriving DecidableEq, Repr

/-- Bytes as a big-endian number. -/
def beValue (bytes : List UInt8) : ℕ :=
  bytes.foldl (fun acc b => acc * 256 + b.toNat) 0

/-- `size` bytes of the packet at `offset`, if they are all there. -/
def load (packet : List UInt8) (offset size : ℕ) : Option UInt32 :=
  if offset + size ≤ packet.length then
    some (UInt32.ofNat (beValue ((packet.drop offset).take size)))
  else none

def Src.eval (src : Src) (r : Regs) : UInt32 :=
  match src with
  | .const k => k
  | .index => r.x

/-- `none`: a division by zero. -/
def AluOp.eval (op : AluOp) (a b : UInt32) : Option UInt32 :=
  match op with
  | .add => some (a + b)
  | .sub => some (a - b)
  | .mul => some (a * b)
  | .div => if b = 0 then none else some (a / b)
  | .or => some (a ||| b)
  | .and => some (a &&& b)
  | .lsh => some (a <<< b)
  | .rsh => some (a >>> b)
  | .mod => if b = 0 then none else some (a % b)
  | .xor => some (a ^^^ b)

def Cond.test (cond : Cond) (a b : UInt32) : Bool :=
  match cond with
  | .eq => a = b
  | .gt => b < a
  | .ge => b ≤ a
  | .set => a &&& b ≠ 0

/-- What one instruction does: go on after skipping `skip` instructions, or end
with a result. -/
inductive Effect where
  | next (skip : ℕ) (r : Regs)
  | done (result : UInt32)
deriving DecidableEq, Repr

/-- A value that is missing (a load outside the packet, a division by zero) ends
the program with result `0`. -/
def Effect.ofOption (value : Option UInt32) (next : UInt32 → Effect) : Effect :=
  match value with
  | none => .done 0
  | some v => next v

def Op.exec (op : Op) (packet : List UInt8) (r : Regs) : Effect :=
  match op with
  | .ldAbs size k => .ofOption (load packet k.toNat size) fun v => .next 0 { r with a := v }
  | .ldInd size k =>
      .ofOption (load packet (r.x.toNat + k.toNat) size) fun v => .next 0 { r with a := v }
  | .ldImm k => .next 0 { r with a := k }
  | .ldLen => .next 0 { r with a := UInt32.ofNat packet.length }
  | .ldxImm k => .next 0 { r with x := k }
  | .ldxLen => .next 0 { r with x := UInt32.ofNat packet.length }
  | .alu op src => .ofOption (op.eval r.a (src.eval r)) fun v => .next 0 { r with a := v }
  | .neg => .next 0 { r with a := 0 - r.a }
  | .jumpAlways k => .next k.toNat r
  | .jump cond src jt jf =>
      .next (if cond.test r.a (src.eval r) then jt.toNat else jf.toNat) r
  | .retConst k => .done k
  | .retA => .done r.a
  | .tax => .next 0 { r with x := r.a }
  | .txa => .next 0 { r with a := r.x }

/-- Run the instructions that remain. -/
def runFrom (packet : List UInt8) : ℕ → List Insn → Regs → Option UInt32
  | 0, _, _ => none
  | _ + 1, [], _ => none
  | fuel + 1, i :: rest, r =>
      match i.decode with
      | none => none
      | some op =>
          match op.exec packet r with
          | .done result => some result
          | .next skip r' => runFrom packet fuel (rest.drop skip) r'

/-- The result of a program on a packet. -/
def run (program : List Insn) (packet : List UInt8) : Option UInt32 :=
  runFrom packet program.length program ⟨0, 0⟩

/-! ## Symbolic execution

One rule per way an instruction can go on; a concrete program is executed by
rewriting with them. -/

theorem runFrom_done {packet : List UInt8} {fuel : ℕ} {i : Insn} {rest : List Insn} {r : Regs}
    {result : UInt32} (op : Op) (hop : i.decode = some op)
    (hexec : op.exec packet r = .done result) :
    runFrom packet (fuel + 1) (i :: rest) r = some result := by
  simp [runFrom, hop, hexec]

theorem runFrom_next {packet : List UInt8} {fuel : ℕ} {i : Insn} {rest : List Insn} {r r' : Regs}
    (op : Op) (skip : ℕ) (hop : i.decode = some op) (hexec : op.exec packet r = .next skip r') :
    runFrom packet (fuel + 1) (i :: rest) r = runFrom packet fuel (rest.drop skip) r' := by
  simp [runFrom, hop, hexec]

theorem exec_ldAbs_none {packet : List UInt8} {size : ℕ} {k : UInt32} {r : Regs}
    (h : packet.length < k.toNat + size) : (Op.ldAbs size k).exec packet r = .done 0 := by
  have hload : load packet k.toNat size = none := by
    unfold load
    rw [if_neg (by omega)]
  simp [Op.exec, hload, Effect.ofOption]

theorem exec_ldAbs_some {packet : List UInt8} {size : ℕ} {k : UInt32} {r : Regs}
    (h : k.toNat + size ≤ packet.length) :
    (Op.ldAbs size k).exec packet r =
      .next 0 { r with a := UInt32.ofNat (beValue ((packet.drop k.toNat).take size)) } := by
  have hload : load packet k.toNat size =
      some (UInt32.ofNat (beValue ((packet.drop k.toNat).take size))) := by
    unfold load
    rw [if_pos h]
  simp [Op.exec, hload, Effect.ofOption]

theorem beValue_one (b : UInt8) : beValue [b] = b.toNat := by
  simp [beValue]

theorem beValue_two (hi lo : UInt8) : beValue [hi, lo] = hi.toNat * 256 + lo.toNat := by
  simp [beValue]

end Bpf.Classic
