import RiscvCpu.Lib.SkidBuffer
import RiscvCpu.Rtl.Defines

/-!
# MemStage — `mem_stage.sv`

The memory stage: its registered boundary to execute, load alignment, the choice of the value that
is written back, and the detection of exceptions and of the external interrupt.
-/

namespace RiscvCpu
namespace MemStage

/-- What is latched with an instruction: `es_ms_bus_r`, `exe_exc_bus_r` and `es_flush_r`. -/
structure Payload where
  bus : EsToMsBus
  exc : ExeExcBus
  esFlush : Bool

structure Regs where
  buf : SkidBuffer.Regs Payload

structure InPorts where
  esToMsValid : Bool
  esToMsBus : EsToMsBus
  exeExcBus : ExeExcBus
  esFlush : Bool

def resetPayload : Payload :=
  { bus :=
      ⟨0#32, 0#32, ⟨false, false, false, false, false, false⟩, 0#5, false, false, ⟨false, false⟩,
        false, 0#12, 0#32⟩
    exc := ⟨false, 0#32, ⟨0#7, 0#32⟩⟩
    esFlush := false }

def reset : Regs := { buf := SkidBuffer.reset resetPayload }

def msValid (r : Regs) : Bool := r.buf.valid
def bus (r : Regs) : EsToMsBus := r.buf.main.bus
def msFlush (r : Regs) : Bool := r.buf.main.esFlush

/-! ## Handshake -/

def msReadyGo : Bool := true

/-- The wires of the boundary to execute, for a stage that may stall for its own reason. -/
def wires (q : InPorts) (readyGo wsAllowin exceptionFlag : Bool) : SkidBuffer.Wires :=
  { upValid := q.esToMsValid
    readyGo := readyGo
    downAllowin := wsAllowin
    drop := exceptionFlag }

def msAllowin (r : Regs) : Bool := r.buf.allowin

def msToWsValid (r : Regs) : Bool := msValid r && msReadyGo

/-! ## Load data -/

def dataOffset (r : Regs) : BitVec 2 := (bus r).exeResult.extractLsb' 0 2

def loadLw (r : Regs) : Bool := (bus r).loadInst == LoadInst.LW

def loadByte (r : Regs) (dmemRdata : Word) : BitVec 8 :=
  if dataOffset r == 0b00#2 then dmemRdata.extractLsb' 0 8
  else if dataOffset r == 0b01#2 then dmemRdata.extractLsb' 8 8
  else if dataOffset r == 0b10#2 then dmemRdata.extractLsb' 16 8
  else dmemRdata.extractLsb' 24 8

def loadHalf (r : Regs) (dmemRdata : Word) : BitVec 16 :=
  if (dataOffset r).getLsbD 1 then dmemRdata.extractLsb' 16 16 else dmemRdata.extractLsb' 0 16

def loadData (r : Regs) (dmemRdata : Word) : Word :=
  if (bus r).loadInst == LoadInst.LB then (loadByte r dmemRdata).signExtend 32
  else if (bus r).loadInst == LoadInst.LBU then (loadByte r dmemRdata).setWidth 32
  else if (bus r).loadInst == LoadInst.LH then (loadHalf r dmemRdata).signExtend 32
  else if (bus r).loadInst == LoadInst.LHU then (loadHalf r dmemRdata).setWidth 32
  -- a word load, and everything that is no load
  else dmemRdata

def memLwLiveValid (cfg : Config) (r : Regs) : Bool :=
  cfg.lwLiveBypassEnable && (msValid r && !msFlush r && loadLw r)

def memLwLiveData (cfg : Config) (dmemRdata : Word) : Word :=
  if cfg.lwLiveBypassEnable then dmemRdata else 0#32

/-- `{32{wb_sel[1]}} & exe_result | {32{~wb_sel[1]}} & load_data`. -/
def memResult (r : Regs) (dmemRdata : Word) : Word :=
  if (bus r).exeResultSel.exe then (bus r).exeResult else loadData r dmemRdata

def memDstAddr (r : Regs) : BitVec 5 := (bus r).rdAddr

def memRegfileWen (r : Regs) (exceptionFlag : Bool) : Bool :=
  msValid r && (bus r).regfileWen && !msFlush r && !exceptionFlag

def memRegFpuWen (r : Regs) (exceptionFlag : Bool) : Bool :=
  msValid r && (bus r).regFpuWen && !msFlush r && !exceptionFlag

/-! ## Exceptions -/

def exceptionIam (r : Regs) : Bool :=
  msValid r &&
  (r.buf.main.exc.brTaken && (r.buf.main.exc.brTarget.extractLsb' 0 2 != 0b00#2)) &&
  !msFlush r

def exceptionLam (r : Regs) : Bool :=
  msValid r && !msFlush r &&
  ((((bus r).loadInst == LoadInst.LW) && (dataOffset r != 0b00#2)) ||
   ((((bus r).loadInst == LoadInst.LH) || ((bus r).loadInst == LoadInst.LHU)) &&
      (dataOffset r).getLsbD 0))

def exceptionSam (r : Regs) : Bool :=
  msValid r && !msFlush r &&
  ((((bus r).loadInst == LoadInst.SW) && (dataOffset r != 0b00#2)) ||
   (((bus r).loadInst == LoadInst.SH) && (dataOffset r).getLsbD 0))

def excCode (r : Regs) : BitVec 7 := r.buf.main.exc.exc.excCode

def syncException (r : Regs) : Bool :=
  exceptionIam r || exceptionLam r || exceptionSam r || (excCode r).getLsbD 5

def takeIrq (r : Regs) (plicIrq externalIrqEnable : Bool) : Bool :=
  -- an exception of the instruction itself goes first
  msValid r && !msFlush r && !syncException r && plicIrq && externalIrqEnable

def exceptionCode (r : Regs) (plicIrq externalIrqEnable : Bool) : BitVec 7 :=
  if msFlush r then Exc.NONE
  else if exceptionIam r then Exc.IAM
  else if exceptionLam r then Exc.LAM
  else if exceptionSam r then Exc.SAM
  else if takeIrq r plicIrq externalIrqEnable then Exc.PLIC_IRQ_BIT
  -- what decode found: `ecall`, `ebreak`, `mret` or nothing
  else excCode r

def exceptionMtval (r : Regs) (plicIrq externalIrqEnable : Bool) : Word :=
  if msFlush r then 0#32
  else if exceptionIam r then r.buf.main.exc.brTarget
  else if exceptionLam r || exceptionSam r then (bus r).exeResult
  else if takeIrq r plicIrq externalIrqEnable then 0#32
  else r.buf.main.exc.exc.excMtval

/-! ## CSR port -/

def csrWe (r : Regs) (code : BitVec 7) : Bool :=
  -- an instruction that traps does not write its CSR
  msValid r && (bus r).csrWen && !msFlush r && !code.getLsbD 5

def csrWaddr (r : Regs) : BitVec 12 := (bus r).csrAddr

def csrWdata (r : Regs) (code : BitVec 7) : Word :=
  -- on a trap the port carries the pc to `mepc`
  if code.getLsbD 5 then (bus r).pc else (bus r).csrWdata

/-! ## Output and clock edge -/

def msToWsBus (r : Regs) (dmemRdata : Word) (exceptionFlag : Bool) : MsToWsBus :=
  { pc := (bus r).pc
    result := memResult r dmemRdata
    rdAddr := (bus r).rdAddr
    regfileWen := memRegfileWen r exceptionFlag
    regFpuWen := memRegFpuWen r exceptionFlag }

def next (r : Regs) (q : InPorts) (wsAllowin exceptionFlag : Bool) : Regs :=
  { buf :=
      SkidBuffer.next r.buf (wires q msReadyGo wsAllowin exceptionFlag)
        ⟨q.esToMsBus, q.exeExcBus, q.esFlush⟩ }

end MemStage
end RiscvCpu
