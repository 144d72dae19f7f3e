import RiscvCpu.Isa.Encoding
import RiscvCpu.Pipeline.Packet

/-!
# Classes — the decoder on the words of the instruction set

What `id_stage` derives from a word of one of the two computational opcodes is a function of its
function fields.  The functions are written out here, so that for any encoding of the instruction
set's tables they compute.
-/

namespace RiscvCpu
namespace Decode

/-! ## One-hot vectors and class bits -/

def anyBitman (o : BitmanOp) : Bool :=
  o.sh1add || o.sh2add || o.sh3add || o.andn || o.orn || o.xnor ||
  o.min || o.max || o.minu || o.maxu || o.sextb || o.sexth || o.zexth ||
  o.orcb || o.rev8 || o.brev8 || o.pack || o.packh || o.zip || o.unzip ||
  o.bclr || o.bclri || o.bext || o.bexti || o.binv || o.binvi || o.bset || o.cpop

def anyAlu (o : AluOp) : Bool :=
  o.add || o.sub || o.and || o.or || o.xor || o.sll || o.srl || o.sra || o.slt || o.sltu

theorem isBitmanInst_eq (x : Word) : isBitmanInst x = anyBitman (bitmanOp x) := rfl

theorem isAluInst_eq (x : Word) : isAluInst x = anyAlu (aluOp x) := rfl

/-! ## The opcode `OP` -/

def regBitman (f7 : BitVec 7) (f3 : BitVec 3) (r2 : BitVec 5) : BitmanOp :=
  { sh1add := f3 == 0b010#3 && f7 == 0b0010000#7
    sh2add := f3 == 0b100#3 && f7 == 0b0010000#7
    sh3add := f3 == 0b110#3 && f7 == 0b0010000#7
    andn := f3 == 0b111#3 && f7 == 0b0100000#7
    orn := f3 == 0b110#3 && f7 == 0b0100000#7
    xnor := f3 == 0b100#3 && f7 == 0b0100000#7
    min := f3 == 0b100#3 && f7 == 0b0000101#7
    max := f3 == 0b110#3 && f7 == 0b0000101#7
    minu := f3 == 0b101#3 && f7 == 0b0000101#7
    maxu := f3 == 0b111#3 && f7 == 0b0000101#7
    sextb := false
    sexth := false
    zexth := f3 == 0b100#3 && f7 == 0b0000100#7 && r2 == 0#5
    orcb := false
    rev8 := false
    brev8 := false
    pack := f3 == 0b100#3 && f7 == 0b0000100#7 && r2 != 0#5
    packh := f3 == 0b111#3 && f7 == 0b0000100#7
    zip := false
    unzip := false
    bclr := f3 == 0b001#3 && f7 == 0b0100100#7
    bclri := false
    bext := f3 == 0b101#3 && f7 == 0b0100100#7
    bexti := false
    binv := f3 == 0b001#3 && f7 == 0b0110100#7
    binvi := false
    bset := f3 == 0b001#3 && f7 == 0b0010100#7
    cpop := false }

def regAlu (f7 : BitVec 7) (f3 : BitVec 3) : AluOp :=
  { add := f3 == 0b000#3 && f7 == 0b0000000#7
    sub := f3 == 0b000#3 && f7 == 0b0100000#7
    and := f3 == 0b111#3 && f7 == 0b0000000#7
    or := f3 == 0b110#3 && f7 == 0b0000000#7
    xor := f3 == 0b100#3 && f7 == 0b0000000#7
    sll := f3 == 0b001#3 && f7 == 0b0000000#7
    srl := f3 == 0b101#3 && f7 == 0b0000000#7
    sra := f3 == 0b101#3 && f7 == 0b0100000#7
    slt := f3 == 0b010#3 && f7 == 0b0000000#7
    sltu := f3 == 0b011#3 && f7 == 0b0000000#7 }

def regMul (f7 : BitVec 7) (f3 : BitVec 3) : MulPacket :=
  let m := f7 == 0b0000001#7
  { mulOp :=
      { mul := f3 == 0b000#3 && m
        mulh := f3 == 0b001#3 && m || f3 == 0b010#3 && m || f3 == 0b011#3 && m
        div := f3 == 0b100#3 && m || f3 == 0b101#3 && m
        rem := f3 == 0b110#3 && m || f3 == 0b111#3 && m }
    src1Signed :=
      f3 == 0b000#3 && m || f3 == 0b001#3 && m || f3 == 0b010#3 && m || f3 == 0b100#3 && m ||
        f3 == 0b110#3 && m
    src2Signed :=
      f3 == 0b000#3 && m || f3 == 0b001#3 && m || f3 == 0b100#3 && m || f3 == 0b110#3 && m }

variable {x : Word}

theorem bitmanOp_reg (hop : opcode x = 0b0110011#7) :
    bitmanOp x = regBitman (funct7 x) (funct3 x) (rs2Addr x) := by
  simp [bitmanOp, regBitman, isBitman, isBitmanImm, hop, instSh1add, instSh2add, instSh3add,
    instAndn, instOrn, instXnor, instMin, instMax, instMinu, instMaxu, instSextb, instSexth,
    instZexth, instOrcb, instRev8, instBrev8, instPack, instPackh, instZip, instUnzip, instBclr,
    instBclri, instBext, instBexti, instBinv, instBinvi, instBset, instCpop, f3_001, f3_010,
    f3_100, f3_101, f3_110, f3_111]

theorem aluOp_reg (hop : opcode x = 0b0110011#7) : aluOp x = regAlu (funct7 x) (funct3 x) := by
  simp [aluOp, regAlu, isOpReg, isOpImm, isLui, isAuipc, hop, instAdd, instAddi, instSub, instAnd,
    instAndi, instOr, instOri, instXor, instXori, instSll, instSlli, instSrl, instSrli, instSra,
    instSrai, instSlt, instSlti, instSltu, instSltiu, instLui, instAuipc, f3_000, f3_001, f3_010,
    f3_011, f3_100, f3_101, f3_110, f3_111, f7_0000000, f7_0100000]

theorem mulPacket_reg (hop : opcode x = 0b0110011#7) :
    mulPacket x = regMul (funct7 x) (funct3 x) := by
  simp [mulPacket, regMul, isOpReg, hop, instMul, instMulh, instMulhsu, instMulhu, instDiv,
    instDivu, instRem, instRemu, f3_000, f3_001, f3_010, f3_011, f3_100, f3_101, f3_110, f3_111,
    f7_0000001]

theorem isMulInst_reg (hop : opcode x = 0b0110011#7) :
    isMulInst x = (funct7 x == 0b0000001#7) := by
  have hf3 : ∀ f : BitVec 3,
      (f == 0b000#3 || f == 0b001#3 || f == 0b010#3 || f == 0b011#3 || f == 0b100#3 ||
        f == 0b101#3 || f == 0b110#3 || f == 0b111#3) = true := by
    decide
  have h := hf3 (funct3 x)
  simp only [isMulInst, isOpReg, hop, instMul, instMulh, instMulhsu, instMulhu, instDiv,
    instDivu, instRem, instRemu, f3_000, f3_001, f3_010, f3_011, f3_100, f3_101, f3_110, f3_111,
    f7_0000001]
  cases funct7 x == 0b0000001#7 with
  | false => simp
  | true => simpa using h

/-! ## The opcode `OP-IMM` -/

def immBitman (f7 : BitVec 7) (r2 : BitVec 5) (f3 : BitVec 3) : BitmanOp :=
  { sh1add := false
    sh2add := false
    sh3add := false
    andn := false
    orn := false
    xnor := false
    min := false
    max := false
    minu := false
    maxu := false
    sextb := f3 == 0b001#3 && f7 == 0b0110000#7 && r2 == 0b00100#5
    sexth := f3 == 0b001#3 && f7 == 0b0110000#7 && r2 == 0b00101#5
    zexth := false
    orcb := f3 == 0b101#3 && f7 == 0b0010100#7 && r2 == 0b00111#5
    rev8 := f3 == 0b101#3 && f7 == 0b0110100#7 && r2 == 0b11000#5
    brev8 := f3 == 0b101#3 && f7 == 0b0110100#7 && r2 == 0b00111#5
    pack := false
    packh := false
    zip := f3 == 0b001#3 && f7 == 0b0000100#7 && r2 == 0b01111#5
    unzip := f3 == 0b101#3 && f7 == 0b0000100#7 && r2 == 0b01111#5
    bclr := false
    bclri := f3 == 0b001#3 && f7 == 0b0100100#7
    bext := false
    bexti := f3 == 0b101#3 && f7 == 0b0100100#7
    binv := false
    binvi := f3 == 0b001#3 && f7 == 0b0110100#7
    bset := false
    cpop := f3 == 0b001#3 && f7 == 0b0110000#7 }

def immAlu (f7 : BitVec 7) (f3 : BitVec 3) : AluOp :=
  { add := f3 == 0b000#3
    sub := false
    and := f3 == 0b111#3
    or := f3 == 0b110#3
    xor := f3 == 0b100#3
    sll := f3 == 0b001#3 && f7 == 0b0000000#7
    srl := f3 == 0b101#3 && f7 == 0b0000000#7
    sra := f3 == 0b101#3 && f7 == 0b0100000#7
    slt := f3 == 0b010#3
    sltu := f3 == 0b011#3 }

theorem immI_eq (x : Word) : immI x = funct7 x ++ rs2Addr x := by
  apply BitVec.eq_of_getLsbD_eq
  intro n hn
  simp only [immI, funct7, rs2Addr, BitVec.getLsbD_append, BitVec.getLsbD_extractLsb']
  grind

theorem append_toNat (a : BitVec 7) (b : BitVec 5) : (a ++ b).toNat = a.toNat * 32 + b.toNat := by
  rw [BitVec.toNat_append, ← Nat.shiftLeft_add_eq_or_of_lt b.isLt, Nat.shiftLeft_eq]

/-- A twelve-bit immediate is matched by its two fields. -/
theorem immI_beq (x : Word) (f7 : BitVec 7) (r2 : BitVec 5) :
    (immI x == f7 ++ r2) = (funct7 x == f7 && rs2Addr x == r2) := by
  rw [immI_eq, Bool.eq_iff_iff]
  simp only [beq_iff_eq, Bool.and_eq_true, ← BitVec.toNat_inj, append_toNat]
  have h1 := (rs2Addr x).isLt
  have h2 := r2.isLt
  omega

theorem bitmanOp_imm (hop : opcode x = 0b0010011#7) :
    bitmanOp x = immBitman (funct7 x) (rs2Addr x) (funct3 x) := by
  have h604 : (immI x == 0x604#12) = (funct7 x == 0b0110000#7 && rs2Addr x == 0b00100#5) :=
    immI_beq x 0b0110000#7 0b00100#5
  have h605 : (immI x == 0x605#12) = (funct7 x == 0b0110000#7 && rs2Addr x == 0b00101#5) :=
    immI_beq x 0b0110000#7 0b00101#5
  have h287 : (immI x == 0x287#12) = (funct7 x == 0b0010100#7 && rs2Addr x == 0b00111#5) :=
    immI_beq x 0b0010100#7 0b00111#5
  have h698 : (immI x == 0x698#12) = (funct7 x == 0b0110100#7 && rs2Addr x == 0b11000#5) :=
    immI_beq x 0b0110100#7 0b11000#5
  have h687 : (immI x == 0x687#12) = (funct7 x == 0b0110100#7 && rs2Addr x == 0b00111#5) :=
    immI_beq x 0b0110100#7 0b00111#5
  simp [bitmanOp, immBitman, isBitman, isBitmanImm, hop, instSh1add, instSh2add, instSh3add,
    instAndn, instOrn, instXnor, instMin, instMax, instMinu, instMaxu, instSextb, instSexth,
    instZexth, instOrcb, instRev8, instBrev8, instPack, instPackh, instZip, instUnzip, instBclr,
    instBclri, instBext, instBexti, instBinv, instBinvi, instBset, instCpop, f3_001,
    f3_101, h604, h605, h287, h698, h687, Bool.and_assoc]

theorem aluOp_imm (hop : opcode x = 0b0010011#7) : aluOp x = immAlu (funct7 x) (funct3 x) := by
  simp [aluOp, immAlu, isOpReg, isOpImm, isLui, isAuipc, hop, instAdd, instAddi, instSub, instAnd,
    instAndi, instOr, instOri, instXor, instXori, instSll, instSlli, instSrl, instSrli, instSra,
    instSrai, instSlt, instSlti, instSltu, instSltiu, instLui, instAuipc, f3_000, f3_001, f3_010,
    f3_011, f3_100, f3_101, f3_110, f3_111, f7_0000000, f7_0100000]

end Decode
end RiscvCpu
