import RiscvCpu.Lib.Memory

/-!
# Defines — `defines.svh` and the buses between the stages

Machine words are `BitVec 32`.  A packed bus of the RTL is a structure with one field for each packed
slice; a one-hot operation vector is a structure of bits in the order in which it is packed.  Both
ends of every bus pack and unpack it in the same order, so nothing else is lost by naming the slices.

`fpu.sv` drives the constants `fpu_result = 0` and `fpu_stall = 0` whatever its inputs are.  The
slices that only feed it (`fpu_packet` and the third floating-point operand) are left out.
-/

namespace RiscvCpu

/-- The compile-time switches of `defines.svh` that the core reads. -/
structure Config where
  perfBench : Bool
  lwLiveBypassEnable : Bool
  deriving DecidableEq

/-- `` `PC_START ``. -/
def Config.pcStart (cfg : Config) : Word :=
  if cfg.perfBench then 0x0000_0000#32 else 0x8000_0000#32

/-- `` `MUL_HIGH_CYCLE ``. -/
def mulHighCycle : Nat := 3

/-! ## Fetch to decode -/

structure FsToDsBus where
  inst : Word
  pc : Word
  bpPredTaken : Bool
  bpPredTarget : Word

/-- `exc_code` and `exc_mtval` (`EXC_WIDTH`). -/
structure ExcBus where
  excCode : BitVec 7
  excMtval : Word

/-! ## Decode to execute -/

structure BitmanOp where
  (sh1add sh2add sh3add : Bool)
  (andn orn xnor : Bool)
  (min max minu maxu : Bool)
  (sextb sexth zexth : Bool)
  (orcb rev8 brev8 : Bool)
  (pack packh zip unzip : Bool)
  (bclr bclri bext bexti : Bool)
  (binv binvi bset cpop : Bool)

structure AluOp where
  (add sub and or xor sll srl sra slt sltu : Bool)
  deriving DecidableEq

structure MulOp where
  (mul mulh div rem : Bool)
  deriving DecidableEq

structure MulPacket where
  mulOp : MulOp
  src1Signed : Bool
  src2Signed : Bool

structure MemOp where
  (b h w bu hu : Bool)
  deriving DecidableEq

/-- `|mem_op`. -/
def MemOp.any (op : MemOp) : Bool :=
  op.b || op.h || op.w || op.bu || op.hu

structure MemPacket where
  memImm : Word
  memOp : MemOp
  isStore : Bool
  stackBaseReg : Bool
  stackLoadHit : Bool

structure CsrOp where
  (rw rs rc : Bool)
  deriving DecidableEq

structure CsrPacket where
  csrRdata : Word
  csrImm : Word
  csrWaddr : BitVec 12
  csrOp : CsrOp
  csrImmSel : Bool
  csrRdataFwd : Bool
  csrWen : Bool

structure BrJmpOpcode where
  (beq bne blt bge bltu bgeu : Bool)

/-- `|br_jmp_opcode`. -/
def BrJmpOpcode.any (op : BrJmpOpcode) : Bool :=
  op.beq || op.bne || op.blt || op.bge || op.bltu || op.bgeu

structure BrJmpPacket where
  bpPredTaken : Bool
  bpPredTarget : Word
  brJmpTarget : Word
  brJmpImm : Word
  brJmpOpcode : BrJmpOpcode
  isJal : Bool
  isJalr : Bool

/-- `exe_result_sel = {wb_exe_result, wb_mem_result}`. -/
structure ExeResultSel where
  (exe mem : Bool)

structure CtrlPacket where
  pc : Word
  exeResultSel : ExeResultSel
  (isBitman isAlu isFpu isMul isMem isCsr isBrJmp : Bool)
  rdAddr : BitVec 5
  regfileWen : Bool
  regFpuWen : Bool
  isMulticycle : Bool

structure SrcPacket where
  regSrc1 : Word
  regSrc2 : Word
  src1Fwd : BitVec 2
  src2Fwd : BitVec 2
  stackSrc1Fwd : Bool
  stackSrc2Fwd : Bool

structure DsToEsBus where
  bitmanOp : BitmanOp
  aluOp : AluOp
  mul : MulPacket
  mem : MemPacket
  csr : CsrPacket
  brJmp : BrJmpPacket
  ctrl : CtrlPacket
  src : SrcPacket

/-! ## Execute to memory -/

/-- `load_inst`, the six bits matched against `` `LB `` .. `` `SB ``. -/
structure LoadInst where
  (b h w bu hu store : Bool)
  deriving DecidableEq

namespace LoadInst

def LB : LoadInst := ⟨true, false, false, false, false, false⟩
def LH : LoadInst := ⟨false, true, false, false, false, false⟩
def LW : LoadInst := ⟨false, false, true, false, false, false⟩
def LBU : LoadInst := ⟨false, false, false, true, false, false⟩
def LHU : LoadInst := ⟨false, false, false, false, true, false⟩
def SW : LoadInst := ⟨false, false, true, false, false, true⟩
def SH : LoadInst := ⟨false, true, false, false, false, true⟩
def SB : LoadInst := ⟨true, false, false, false, false, true⟩

end LoadInst

structure EsToMsBus where
  pc : Word
  exeResult : Word
  loadInst : LoadInst
  rdAddr : BitVec 5
  regfileWen : Bool
  regFpuWen : Bool
  exeResultSel : ExeResultSel
  csrWen : Bool
  csrAddr : BitVec 12
  csrWdata : Word

/-- `exe_exc_bus = {br_bus, ds_exc_bus_r}`. -/
structure ExeExcBus where
  brTaken : Bool
  brTarget : Word
  exc : ExcBus

/-! ## Memory to write-back -/

structure MsToWsBus where
  pc : Word
  result : Word
  rdAddr : BitVec 5
  regfileWen : Bool
  regFpuWen : Bool

/-! ## Exception codes and CSR addresses -/

namespace Exc

def NONE : BitVec 7 := 0b000_0000#7
def IAM : BitVec 7 := 0b010_0000#7
def LAM : BitVec 7 := 0b010_0100#7
def SAM : BitVec 7 := 0b010_0110#7
def PLIC_IRQ_BIT : BitVec 7 := 0b011_0000#7
def ECALL : BitVec 7 := 0b010_1011#7
def EBREAK : BitVec 7 := 0b010_0011#7
def MRET : BitVec 7 := 0b100_0000#7

end Exc

namespace Csr

def MSTATUS : BitVec 12 := 0x300#12
def MISA : BitVec 12 := 0x301#12
def MTVEC : BitVec 12 := 0x305#12
def MEPC : BitVec 12 := 0x341#12
def MCAUSE : BitVec 12 := 0x342#12
def MHARTID : BitVec 12 := 0xF14#12
def MIE : BitVec 12 := 0x304#12
def MIP : BitVec 12 := 0x344#12
def MTVAL : BitVec 12 := 0x343#12
def MVENDORID : BitVec 12 := 0xF11#12
def MARCHID : BitVec 12 := 0xF12#12
def MIMPID : BitVec 12 := 0xF13#12
def MSCRATCH : BitVec 12 := 0x340#12
def CYCLE : BitVec 12 := 0xC00#12
def INSTRET : BitVec 12 := 0xC02#12

end Csr

end RiscvCpu
