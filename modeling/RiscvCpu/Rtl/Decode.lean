import RiscvCpu.Rtl.Defines

/-!
# Decode — the instruction decoder of `id_stage.sv`

Every wire that `id_stage` derives from `id_inst` alone, under its own name.  The dynamic part of the
stage (operands, hazards, flush) is in `IdStage`.
-/

namespace RiscvCpu
namespace Decode

/-! ## Fields -/

def opcode (i : Word) : BitVec 7 := i.extractLsb' 0 7
def funct3 (i : Word) : BitVec 3 := i.extractLsb' 12 3
def funct7 (i : Word) : BitVec 7 := i.extractLsb' 25 7
def rs1Addr (i : Word) : BitVec 5 := i.extractLsb' 15 5
def rs2Addr (i : Word) : BitVec 5 := i.extractLsb' 20 5
def rs3FpuAddr (i : Word) : BitVec 5 := i.extractLsb' 27 5
def csrAddr (i : Word) : BitVec 12 := i.extractLsb' 20 12
def rdAddr (i : Word) : BitVec 5 := i.extractLsb' 7 5

def immI (i : Word) : BitVec 12 := i.extractLsb' 20 12
def immS (i : Word) : BitVec 12 := i.extractLsb' 25 7 ++ i.extractLsb' 7 5
def immB (i : Word) : BitVec 13 :=
  i.extractLsb' 31 1 ++ i.extractLsb' 7 1 ++ i.extractLsb' 25 6 ++ i.extractLsb' 8 4 ++ 0#1
def immU (i : Word) : BitVec 20 := i.extractLsb' 12 20
def immJ (i : Word) : BitVec 21 :=
  i.extractLsb' 31 1 ++ i.extractLsb' 12 8 ++ i.extractLsb' 20 1 ++ i.extractLsb' 21 10 ++ 0#1
def immZ (i : Word) : BitVec 5 := i.extractLsb' 15 5

def immIExt (i : Word) : Word := (immI i).signExtend 32
def immSExt (i : Word) : Word := (immS i).signExtend 32
def immBExt (i : Word) : Word := (immB i).signExtend 32
def immUExt (i : Word) : Word := immU i ++ 0#12
def immJExt (i : Word) : Word := (immJ i).signExtend 32
def immZExt (i : Word) : Word := (immZ i).setWidth 32

/-! ## Opcodes and function codes -/

def isLoad (i : Word) : Bool := opcode i == 0b0000011#7
def isStore (i : Word) : Bool := opcode i == 0b0100011#7
def isBranch (i : Word) : Bool := opcode i == 0b1100011#7
def isJal (i : Word) : Bool := opcode i == 0b1101111#7
def isJalr (i : Word) : Bool := opcode i == 0b1100111#7
def isOpImm (i : Word) : Bool := opcode i == 0b0010011#7
def isOpReg (i : Word) : Bool := opcode i == 0b0110011#7
def isLui (i : Word) : Bool := opcode i == 0b0110111#7
def isAuipc (i : Word) : Bool := opcode i == 0b0010111#7
def isSystem (i : Word) : Bool := opcode i == 0b1110011#7
def isFpu (i : Word) : Bool := opcode i == 0b1010011#7

def f3_000 (i : Word) : Bool := funct3 i == 0b000#3
def f3_001 (i : Word) : Bool := funct3 i == 0b001#3
def f3_010 (i : Word) : Bool := funct3 i == 0b010#3
def f3_011 (i : Word) : Bool := funct3 i == 0b011#3
def f3_100 (i : Word) : Bool := funct3 i == 0b100#3
def f3_101 (i : Word) : Bool := funct3 i == 0b101#3
def f3_110 (i : Word) : Bool := funct3 i == 0b110#3
def f3_111 (i : Word) : Bool := funct3 i == 0b111#3

def f7_0000000 (i : Word) : Bool := funct7 i == 0b0000000#7
def f7_0100000 (i : Word) : Bool := funct7 i == 0b0100000#7
def f7_0000001 (i : Word) : Bool := funct7 i == 0b0000001#7
def f7_0011000 (i : Word) : Bool := funct7 i == 0b0011000#7

/-! ## Bit manipulation -/

def isBitman (i : Word) : Bool := opcode i == 0b0110011#7
def isBitmanImm (i : Word) : Bool := opcode i == 0b0010011#7

def instSh1add (i : Word) : Bool := isBitman i && f3_010 i && (funct7 i == 0b0010000#7)
def instSh2add (i : Word) : Bool := isBitman i && f3_100 i && (funct7 i == 0b0010000#7)
def instSh3add (i : Word) : Bool := isBitman i && f3_110 i && (funct7 i == 0b0010000#7)

def instAndn (i : Word) : Bool := isBitman i && f3_111 i && (funct7 i == 0b0100000#7)
def instOrn (i : Word) : Bool := isBitman i && f3_110 i && (funct7 i == 0b0100000#7)
def instXnor (i : Word) : Bool := isBitman i && f3_100 i && (funct7 i == 0b0100000#7)

def instMax (i : Word) : Bool := isBitman i && f3_110 i && (funct7 i == 0b0000101#7)
def instMaxu (i : Word) : Bool := isBitman i && f3_111 i && (funct7 i == 0b0000101#7)
def instMin (i : Word) : Bool := isBitman i && f3_100 i && (funct7 i == 0b0000101#7)
def instMinu (i : Word) : Bool := isBitman i && f3_101 i && (funct7 i == 0b0000101#7)

def instSextb (i : Word) : Bool := isBitmanImm i && f3_001 i && (immI i == 0x604#12)
def instSexth (i : Word) : Bool := isBitmanImm i && f3_001 i && (immI i == 0x605#12)
def instZexth (i : Word) : Bool :=
  isBitman i && f3_100 i && (funct7 i == 0b0000100#7) && (rs2Addr i == 0b00000#5)

def instOrcb (i : Word) : Bool := isBitmanImm i && f3_101 i && (immI i == 0x287#12)
def instRev8 (i : Word) : Bool := isBitmanImm i && f3_101 i && (immI i == 0x698#12)
def instBrev8 (i : Word) : Bool := isBitmanImm i && f3_101 i && (immI i == 0x687#12)
def instPack (i : Word) : Bool :=
  isBitman i && f3_100 i && (funct7 i == 0b0000100#7) && (rs2Addr i != 0b00000#5)
def instPackh (i : Word) : Bool := isBitman i && f3_111 i && (funct7 i == 0b0000100#7)
def instZip (i : Word) : Bool :=
  isBitmanImm i && f3_001 i && (funct7 i == 0b0000100#7) && (rs2Addr i == 0b01111#5)
def instUnzip (i : Word) : Bool :=
  isBitmanImm i && f3_101 i && (funct7 i == 0b0000100#7) && (rs2Addr i == 0b01111#5)

def instBclr (i : Word) : Bool := isBitman i && f3_001 i && (funct7 i == 0b0100100#7)
def instBclri (i : Word) : Bool := isBitmanImm i && f3_001 i && (funct7 i == 0b0100100#7)
def instBext (i : Word) : Bool := isBitman i && f3_101 i && (funct7 i == 0b0100100#7)
def instBexti (i : Word) : Bool := isBitmanImm i && f3_101 i && (funct7 i == 0b0100100#7)
def instBinv (i : Word) : Bool := isBitman i && f3_001 i && (funct7 i == 0b0110100#7)
def instBinvi (i : Word) : Bool := isBitmanImm i && f3_001 i && (funct7 i == 0b0110100#7)
def instBset (i : Word) : Bool := isBitman i && f3_001 i && (funct7 i == 0b0010100#7)
def instCpop (i : Word) : Bool := isBitmanImm i && f3_001 i && (funct7 i == 0b0110000#7)

def bitmanOp (i : Word) : BitmanOp :=
  { sh1add := instSh1add i, sh2add := instSh2add i, sh3add := instSh3add i
    andn := instAndn i, orn := instOrn i, xnor := instXnor i
    min := instMin i, max := instMax i, minu := instMinu i, maxu := instMaxu i
    sextb := instSextb i, sexth := instSexth i, zexth := instZexth i
    orcb := instOrcb i, rev8 := instRev8 i, brev8 := instBrev8 i
    pack := instPack i, packh := instPackh i, zip := instZip i, unzip := instUnzip i
    bclr := instBclr i, bclri := instBclri i, bext := instBext i, bexti := instBexti i
    binv := instBinv i, binvi := instBinvi i, bset := instBset i, cpop := instCpop i }

def instBitmanAny (i : Word) : Bool :=
  instSh1add i || instSh2add i || instSh3add i ||
  instAndn i || instOrn i || instXnor i ||
  instMin i || instMax i || instMinu i || instMaxu i ||
  instSextb i || instSexth i || instZexth i ||
  instOrcb i || instRev8 i || instBrev8 i ||
  instPack i || instPackh i || instZip i || instUnzip i ||
  instBclr i || instBclri i || instBext i || instBexti i ||
  instBinv i || instBinvi i || instBset i || instCpop i

def instBitmanImmInst (i : Word) : Bool :=
  instBclri i || instBexti i || instBinvi i

def instBitmanRs2Inst (i : Word) : Bool :=
  instSh1add i || instSh2add i || instSh3add i ||
  instAndn i || instOrn i || instXnor i ||
  instMin i || instMax i || instMinu i || instMaxu i ||
  instPack i || instPackh i ||
  instBclr i || instBext i || instBinv i || instBset i

/-! ## RV32I and RV32M -/

def instLw (i : Word) : Bool := isLoad i && f3_010 i
def instLb (i : Word) : Bool := isLoad i && f3_000 i
def instLh (i : Word) : Bool := isLoad i && f3_001 i
def instLbu (i : Word) : Bool := isLoad i && f3_100 i
def instLhu (i : Word) : Bool := isLoad i && f3_101 i

def instSw (i : Word) : Bool := isStore i && f3_010 i
def instSb (i : Word) : Bool := isStore i && f3_000 i
def instSh (i : Word) : Bool := isStore i && f3_001 i

def instBeq (i : Word) : Bool := isBranch i && f3_000 i
def instBne (i : Word) : Bool := isBranch i && f3_001 i
def instBlt (i : Word) : Bool := isBranch i && f3_100 i
def instBge (i : Word) : Bool := isBranch i && f3_101 i
def instBltu (i : Word) : Bool := isBranch i && f3_110 i
def instBgeu (i : Word) : Bool := isBranch i && f3_111 i

def instJalr (i : Word) : Bool := isJalr i

def instAddi (i : Word) : Bool := isOpImm i && f3_000 i
def instSlti (i : Word) : Bool := isOpImm i && f3_010 i
def instSltiu (i : Word) : Bool := isOpImm i && f3_011 i
def instXori (i : Word) : Bool := isOpImm i && f3_100 i
def instOri (i : Word) : Bool := isOpImm i && f3_110 i
def instAndi (i : Word) : Bool := isOpImm i && f3_111 i
def instSlli (i : Word) : Bool := isOpImm i && f3_001 i && f7_0000000 i
def instSrli (i : Word) : Bool := isOpImm i && f3_101 i && f7_0000000 i
def instSrai (i : Word) : Bool := isOpImm i && f3_101 i && f7_0100000 i

def instAdd (i : Word) : Bool := isOpReg i && f3_000 i && f7_0000000 i
def instSub (i : Word) : Bool := isOpReg i && f3_000 i && f7_0100000 i
def instSll (i : Word) : Bool := isOpReg i && f3_001 i && f7_0000000 i
def instSlt (i : Word) : Bool := isOpReg i && f3_010 i && f7_0000000 i
def instSltu (i : Word) : Bool := isOpReg i && f3_011 i && f7_0000000 i
def instXor (i : Word) : Bool := isOpReg i && f3_100 i && f7_0000000 i
def instOr (i : Word) : Bool := isOpReg i && f3_110 i && f7_0000000 i
def instAnd (i : Word) : Bool := isOpReg i && f3_111 i && f7_0000000 i
def instSrl (i : Word) : Bool := isOpReg i && f3_101 i && f7_0000000 i
def instSra (i : Word) : Bool := isOpReg i && f3_101 i && f7_0100000 i
def instMul (i : Word) : Bool := isOpReg i && f3_000 i && f7_0000001 i
def instMulh (i : Word) : Bool := isOpReg i && f3_001 i && f7_0000001 i
def instMulhsu (i : Word) : Bool := isOpReg i && f3_010 i && f7_0000001 i
def instMulhu (i : Word) : Bool := isOpReg i && f3_011 i && f7_0000001 i
def instDiv (i : Word) : Bool := isOpReg i && f3_100 i && f7_0000001 i
def instDivu (i : Word) : Bool := isOpReg i && f3_101 i && f7_0000001 i
def instRem (i : Word) : Bool := isOpReg i && f3_110 i && f7_0000001 i
def instRemu (i : Word) : Bool := isOpReg i && f3_111 i && f7_0000001 i

def instLui (i : Word) : Bool := isLui i
def instAuipc (i : Word) : Bool := isAuipc i

/-! ## SYSTEM -/

def instEcall (i : Word) : Bool := isSystem i && f3_000 i && (i.extractLsb' 20 6 == 0b000000#6)
def instEbreak (i : Word) : Bool := isSystem i && f3_000 i && (i.extractLsb' 20 6 == 0b000001#6)
def instMret (i : Word) : Bool := isSystem i && f3_000 i && f7_0011000 i
def instCsrrw (i : Word) : Bool := isSystem i && f3_001 i
def instCsrrs (i : Word) : Bool := isSystem i && f3_010 i
def instCsrrc (i : Word) : Bool := isSystem i && f3_011 i
def instCsrrwi (i : Word) : Bool := isSystem i && f3_101 i
def instCsrrsi (i : Word) : Bool := isSystem i && f3_110 i
def instCsrrci (i : Word) : Bool := isSystem i && f3_111 i

/-! ## Floating point -/

def isFload (i : Word) : Bool := opcode i == 0b0000111#7
def isFstore (i : Word) : Bool := opcode i == 0b0100111#7
def isFmadd (i : Word) : Bool := opcode i == 0b1000011#7
def isFmsub (i : Word) : Bool := opcode i == 0b1000111#7
def isFnmsub (i : Word) : Bool := opcode i == 0b1001011#7
def isFnmadd (i : Word) : Bool := opcode i == 0b1001111#7

def rs2_00000 (i : Word) : Bool := rs2Addr i == 0b00000#5
def rs2_00001 (i : Word) : Bool := rs2Addr i == 0b00001#5
def fmtS (i : Word) : Bool := i.extractLsb' 25 2 == 0b00#2

def instFlw (i : Word) : Bool := isFload i && f3_010 i
def instFsw (i : Word) : Bool := isFstore i && f3_010 i
def instFaddS (i : Word) : Bool := isFpu i && f7_0000000 i
def instFsubS (i : Word) : Bool := isFpu i && (funct7 i == 0b0000100#7)
def instFmulS (i : Word) : Bool := isFpu i && (funct7 i == 0b0001000#7)
def instFdivS (i : Word) : Bool := isFpu i && (funct7 i == 0b0001100#7)
def instFsqrtS (i : Word) : Bool := isFpu i && (funct7 i == 0b0101100#7) && rs2_00000 i
def instFminS (i : Word) : Bool := isFpu i && (funct7 i == 0b0010100#7) && f3_000 i
def instFmaxS (i : Word) : Bool := isFpu i && (funct7 i == 0b0010100#7) && f3_001 i
def instFmaddS (i : Word) : Bool := isFmadd i && fmtS i
def instFmsubS (i : Word) : Bool := isFmsub i && fmtS i
def instFnmaddS (i : Word) : Bool := isFnmadd i && fmtS i
def instFnmsubS (i : Word) : Bool := isFnmsub i && fmtS i
def instFcvtWS (i : Word) : Bool := isFpu i && (funct7 i == 0b1100000#7) && rs2_00000 i
def instFcvtWuS (i : Word) : Bool := isFpu i && (funct7 i == 0b1100000#7) && rs2_00001 i
def instFcvtSW (i : Word) : Bool := isFpu i && (funct7 i == 0b1101000#7) && rs2_00000 i
def instFcvtSWu (i : Word) : Bool := isFpu i && (funct7 i == 0b1101000#7) && rs2_00001 i
def instFsgnjS (i : Word) : Bool := isFpu i && (funct7 i == 0b0010000#7) && f3_000 i
def instFsgnjnS (i : Word) : Bool := isFpu i && (funct7 i == 0b0010000#7) && f3_001 i
def instFsgnjxS (i : Word) : Bool := isFpu i && (funct7 i == 0b0010000#7) && f3_010 i
def instFmvWX (i : Word) : Bool := isFpu i && (funct7 i == 0b1111000#7) && f3_000 i && rs2_00000 i
def instFmvXW (i : Word) : Bool := isFpu i && (funct7 i == 0b1110000#7) && f3_000 i && rs2_00000 i
def instFltS (i : Word) : Bool := isFpu i && (funct7 i == 0b1010000#7) && f3_001 i
def instFleS (i : Word) : Bool := isFpu i && (funct7 i == 0b1010000#7) && f3_000 i
def instFeqS (i : Word) : Bool := isFpu i && (funct7 i == 0b1010000#7) && f3_010 i
def instFclassS (i : Word) : Bool := isFpu i && (funct7 i == 0b1110000#7) && f3_001 i && rs2_00000 i

/-! ## Immediate and operand selection -/

def imiValid (i : Word) : Bool :=
  isLoad i || instAddi i || instSlti i || instSltiu i || instXori i || instOri i || instAndi i ||
  instSlli i || instSrli i || instSrai i || instFlw i || instJalr i
def imsValid (i : Word) : Bool := isStore i || instFsw i
def imbValid (i : Word) : Bool := isBranch i
def imuValid (i : Word) : Bool := isLui i || isAuipc i
def imjValid (i : Word) : Bool := isJal i
def imzValid (i : Word) : Bool := instCsrrwi i || instCsrrsi i || instCsrrci i

/-- `{32{valid}} & imm`. -/
def gate (valid : Bool) (imm : Word) : Word := if valid then imm else 0#32

def aluSrc2ImmSel (i : Word) : Bool := isOpImm i || isLui i || isAuipc i

def aluOp (i : Word) : AluOp :=
  { add := instAdd i || instAddi i || instLui i || instAuipc i
    sub := instSub i
    and := instAnd i || instAndi i
    or := instOr i || instOri i
    xor := instXor i || instXori i
    sll := instSll i || instSlli i
    srl := instSrl i || instSrli i
    sra := instSra i || instSrai i
    slt := instSlt i || instSlti i
    sltu := instSltu i || instSltiu i }

def mulPacket (i : Word) : MulPacket :=
  { mulOp :=
      { mul := instMul i
        mulh := instMulh i || instMulhsu i || instMulhu i
        div := instDiv i || instDivu i
        rem := instRem i || instRemu i }
    src1Signed := instMul i || instMulh i || instMulhsu i || instDiv i || instRem i
    src2Signed := instMul i || instMulh i || instDiv i || instRem i }

/-! ## Memory, CSR and jump fields -/

def isStoreInst (i : Word) : Bool := isStore i || instFsw i || instFlw i
def stackBaseReg (i : Word) : Bool := (rs1Addr i == 2#5) || (rs1Addr i == 8#5)
def memImm (i : Word) : Word := gate (imsValid i) (immSExt i) ||| gate (imiValid i) (immIExt i)

def memOp (i : Word) : MemOp :=
  { b := instLb i || instSb i
    h := instLh i || instSh i
    w := instLw i || instSw i || instFlw i || instFsw i
    bu := instLbu i
    hu := instLhu i }

def csrImm (i : Word) : Word := gate (imzValid i) (immZExt i)

def csrOp (i : Word) : CsrOp :=
  { rw := instCsrrw i || instCsrrwi i
    rs := instCsrrs i || instCsrrsi i
    rc := instCsrrc i || instCsrrci i }

def csrImmSel (i : Word) : Bool := instCsrrwi i || instCsrrsi i || instCsrrci i

def csrWen (i : Word) : Bool :=
  instCsrrw i || instCsrrwi i ||
  ((instCsrrs i || instCsrrc i) && (rs1Addr i != 0#5)) ||
  ((instCsrrsi i || instCsrrci i) && (immZ i != 0#5))

def brJmpImm (i : Word) : Word :=
  gate (imbValid i) (immBExt i) ||| gate (imjValid i) (immJExt i) |||
    gate (imiValid i && isJalr i) (immIExt i)

def brJmpOpcode (i : Word) : BrJmpOpcode :=
  { beq := instBeq i, bne := instBne i, blt := instBlt i
    bge := instBge i, bltu := instBltu i, bgeu := instBgeu i }

/-! ## Instruction classes -/

def isBitmanInst (i : Word) : Bool := instBitmanAny i

def isAluInst (i : Word) : Bool :=
  (aluOp i).add || (aluOp i).sub || (aluOp i).and || (aluOp i).or || (aluOp i).xor ||
  (aluOp i).sll || (aluOp i).srl || (aluOp i).sra || (aluOp i).slt || (aluOp i).sltu

/-- The floating-point operations that are multi-cycle in `is_multicycle_inst`. -/
def isFpuMulticycle (i : Word) : Bool :=
  instFdivS i || instFsqrtS i || instFmaddS i || instFmsubS i || instFnmaddS i || instFnmsubS i ||
  instFcvtWS i || instFcvtWuS i || instFcvtSW i || instFcvtSWu i ||
  instFsgnjS i || instFsgnjnS i || instFsgnjxS i ||
  instFmvWX i || instFmvXW i ||
  instFltS i || instFleS i || instFeqS i ||
  instFclassS i

def isFpuInst (i : Word) : Bool :=
  instFaddS i || instFsubS i || instFmulS i || instFminS i || instFmaxS i || isFpuMulticycle i

def isMulInst (i : Word) : Bool :=
  instMul i || instMulh i || instMulhsu i || instMulhu i ||
  instDiv i || instDivu i || instRem i || instRemu i

def isMemInst (i : Word) : Bool := isLoad i || isStore i || instFlw i || instFsw i

def isCsrInst (i : Word) : Bool :=
  instCsrrw i || instCsrrs i || instCsrrc i || instCsrrwi i || instCsrrsi i || instCsrrci i

def isBrJmpInst (i : Word) : Bool := isBranch i || isJal i || isJalr i

def ctrlRegfileWen (i : Word) : Bool :=
  isAluInst i || isFpuInst i || isMulInst i || isLoad i || instFlw i || isCsrInst i ||
  isJal i || isJalr i || isBitmanInst i

def ctrlRegFpuWen (i : Word) : Bool := isFpuInst i

/-- `` `MUL_MULTICYCLE_ENABLE `` and `` `MULTICYCLE_ENABLE `` are both 1. -/
def isMulticycleInst (i : Word) : Bool :=
  isFpuMulticycle i ||
  (instMul i || instMulh i || instMulhsu i || instMulhu i) ||
  instDiv i || instDivu i || instRem i || instRemu i

def exeResultSel (i : Word) : ExeResultSel :=
  { exe :=
      isAluInst i || isFpuInst i || isMulInst i || isCsrInst i || isJal i || isJalr i ||
      isBitmanInst i
    mem := isMemInst i }

def ctrlPacket (i pc : Word) : CtrlPacket :=
  { pc := pc
    exeResultSel := exeResultSel i
    isBitman := isBitmanInst i
    isAlu := isAluInst i
    isFpu := isFpuInst i
    isMul := isMulInst i
    isMem := isMemInst i
    isCsr := isCsrInst i
    isBrJmp := isBrJmpInst i
    rdAddr := rdAddr i
    regfileWen := ctrlRegfileWen i
    regFpuWen := ctrlRegFpuWen i
    isMulticycle := isMulticycleInst i }

/-! ## Source registers that a hazard is checked for -/

def needRs1 (i : Word) : Bool :=
  isOpReg i || isOpImm i || isLoad i || isStore i || isBranch i || instJalr i || isFpu i ||
  instCsrrw i || instCsrrs i || instCsrrc i

def needRs2 (i : Word) : Bool := isOpReg i || isStore i || isBranch i || isFpu i

end Decode
end RiscvCpu
