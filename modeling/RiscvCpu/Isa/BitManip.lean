import RiscvCpu.Isa.Encoding

/-!
# BitManip — the bit-manipulation encodings of the instruction set

Zba, Zbb, Zbkb and Zbs for RV32, all of them under the opcodes `OP` and `OP-IMM`, whether the core
implements them or not.  The operations that the sequential machine has are taken from there.
-/

namespace RiscvCpu
namespace Isa

inductive BitOp
  | reg (o : RegOp)
  | imm (o : ImmOp)
  | zextH
  | clz | ctz
  | rol | ror | rori
  | bseti
  deriving DecidableEq

namespace BitOp

/-- Where the second operand comes from. -/
inductive Second
  | rs2
  | shamt
  | none
  deriving DecidableEq

def second : BitOp → Second
  | reg _ | rol | ror => .rs2
  | imm .bclri | imm .bexti | imm .binvi | rori | bseti => .shamt
  | imm _ | zextH | clz | ctz => .none

/-- The value of the operation; `b` is the register `rs2` or the shift amount. -/
def eval (o : BitOp) (a b : Word) : Word :=
  match o with
  | reg o => o.eval a b
  | imm o => o.eval a b
  | zextH => (a.extractLsb' 0 16).setWidth 32
  | clz => a.clz
  | ctz => a.ctz
  | rol => a.rotateLeft (amount b)
  | ror | rori => a.rotateRight (amount b)
  | bseti => RegOp.bset.eval a b

/-- The summary of the porting work lists the operation as implemented: all but the counts and the
rotations. -/
def listed : BitOp → Bool
  | clz | ctz | imm .cpop | rol | ror | rori => false
  | _ => true

end BitOp

/-! ## Tables -/

/-- `OP`: `funct7`, `funct3`.  The words of `zext.h` are those of `pack` with `x0` and go first. -/
def bitRegTable : List ((BitVec 7 × BitVec 3) × BitOp) :=
  [((0b0010000#7, 0b010#3), .reg .sh1add), ((0b0010000#7, 0b100#3), .reg .sh2add),
    ((0b0010000#7, 0b110#3), .reg .sh3add),
    ((0b0100000#7, 0b111#3), .reg .andn), ((0b0100000#7, 0b110#3), .reg .orn),
    ((0b0100000#7, 0b100#3), .reg .xnor),
    ((0b0000101#7, 0b100#3), .reg .min), ((0b0000101#7, 0b110#3), .reg .max),
    ((0b0000101#7, 0b101#3), .reg .minu), ((0b0000101#7, 0b111#3), .reg .maxu),
    ((0b0110000#7, 0b001#3), .rol), ((0b0110000#7, 0b101#3), .ror),
    ((0b0000100#7, 0b100#3), .reg .pack), ((0b0000100#7, 0b111#3), .reg .packh),
    ((0b0100100#7, 0b001#3), .reg .bclr), ((0b0100100#7, 0b101#3), .reg .bext),
    ((0b0110100#7, 0b001#3), .reg .binv), ((0b0010100#7, 0b001#3), .reg .bset)]

/-- `OP-IMM` with a shift amount: `imm[11:5]`, `funct3`. -/
def bitShamtTable : List ((BitVec 7 × BitVec 3) × BitOp) :=
  [((0b0110000#7, 0b101#3), .rori),
    ((0b0100100#7, 0b001#3), .imm .bclri), ((0b0100100#7, 0b101#3), .imm .bexti),
    ((0b0110100#7, 0b001#3), .imm .binvi), ((0b0010100#7, 0b001#3), .bseti)]

/-- `OP-IMM` with one operand: `imm[11:5]`, `imm[4:0]`, `funct3`. -/
def bitUnaryTable : List ((BitVec 7 × BitVec 5 × BitVec 3) × BitOp) :=
  [((0b0110000#7, 0b00000#5, 0b001#3), .clz), ((0b0110000#7, 0b00001#5, 0b001#3), .ctz),
    ((0b0110000#7, 0b00010#5, 0b001#3), .imm .cpop),
    ((0b0110000#7, 0b00100#5, 0b001#3), .imm .sextB),
    ((0b0110000#7, 0b00101#5, 0b001#3), .imm .sextH),
    ((0b0000100#7, 0b01111#5, 0b001#3), .imm .zip), ((0b0000100#7, 0b01111#5, 0b101#3), .imm .unzip),
    ((0b0010100#7, 0b00111#5, 0b101#3), .imm .orcB), ((0b0110100#7, 0b11000#5, 0b101#3), .imm .rev8),
    ((0b0110100#7, 0b00111#5, 0b101#3), .imm .brev8)]

def bitReg (f7 : BitVec 7) (f3 : BitVec 3) (r2 : BitVec 5) : Option BitOp :=
  if f7 = 0b0000100#7 ∧ f3 = 0b100#3 ∧ r2 = 0#5 then some .zextH else bitRegTable.lookup (f7, f3)

def bitImm (f7 : BitVec 7) (r2 : BitVec 5) (f3 : BitVec 3) : Option BitOp :=
  match bitShamtTable.lookup (f7, f3) with
  | some o => some o
  | none => bitUnaryTable.lookup (f7, r2, f3)

/-- The bit-manipulation instruction that a word encodes. -/
def bitDecode (w : Word) : Option BitOp :=
  if opcode w = 0b0110011#7 then bitReg (funct7 w) (funct3 w) (rs2 w)
  else if opcode w = 0b0010011#7 then bitImm (funct7 w) (rs2 w) (funct3 w)
  else none

theorem bitDecode_reg {w : Word} (hop : opcode w = 0b0110011#7) :
    bitDecode w = bitReg (funct7 w) (funct3 w) (rs2 w) :=
  if_pos hop

theorem bitDecode_imm {w : Word} (hop : opcode w = 0b0010011#7) :
    bitDecode w = bitImm (funct7 w) (rs2 w) (funct3 w) := by
  have hreg : ¬ opcode w = 0b0110011#7 := by
    rw [hop]
    decide
  rw [bitDecode, if_neg hreg, if_pos hop]

end Isa
end RiscvCpu
