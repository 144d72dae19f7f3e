import RiscvCpu.Rtl.ExeStage
import RiscvCpu.Rtl.IdStage
import RiscvCpu.Rtl.IfStage
import RiscvCpu.Rtl.MemStage
import RiscvCpu.Rtl.RegfileCsr
import RiscvCpu.Rtl.StackValueBuffer
import RiscvCpu.Rtl.WbStage

/-!
# CpuTop — `cpu_top.sv`

The five stages, the register files, the CSR file and the stack value buffer, wired as in the
source.  The combinational wires are listed from the memory stage backwards, which is the order in
which they depend on each other.  `reset` is the clock edge with `rst_n` low; `next` is every edge
after it.
-/

namespace RiscvCpu

/-- The registers of the core. -/
structure Cpu where
  fs : IfStage.Regs
  ds : IdStage.Regs
  es : ExeStage.Regs
  ms : MemStage.Regs
  ws : WbStage.Regs
  regfile : Regfiles.Bank
  regFpu : Regfiles.Bank
  csr : RegfileCsr.Regs
  stack : StackValueBuffer.Regs 4

/-- The inputs of the core in one cycle. -/
structure CpuIn where
  imemRdata : Word
  dmemRdata : Word
  plicIrq : Bool

namespace Cpu

def reset (s : Cpu) : Cpu :=
  { fs := IfStage.reset s.fs
    ds := IdStage.reset
    es := ExeStage.reset s.es
    ms := MemStage.reset
    ws := WbStage.reset
    regfile := Regfiles.reset
    regFpu := Regfiles.reset
    csr := RegfileCsr.reset
    stack := StackValueBuffer.reset s.stack }

variable (cfg : Config) (s : Cpu) (i : CpuIn)

/-! ## Memory stage and CSR file -/

def exceptionCode : BitVec 7 :=
  MemStage.exceptionCode s.ms i.plicIrq (RegfileCsr.externalIrqEnable s.csr)

def exceptionMtval : Word :=
  MemStage.exceptionMtval s.ms i.plicIrq (RegfileCsr.externalIrqEnable s.csr)

def takeIrq : Bool := MemStage.takeIrq s.ms i.plicIrq (RegfileCsr.externalIrqEnable s.csr)

def exceptionFlag : Bool := RegfileCsr.exceptionFlag s.csr (exceptionCode s i)

def exceptionAddr : Word := RegfileCsr.exceptionAddr s.csr (exceptionCode s i)

def memResult : Word := MemStage.memResult s.ms i.dmemRdata

def csrWe : Bool := MemStage.csrWe s.ms (exceptionCode s i)

/-! ## Execute stage -/

def exePorts : ExeStage.Ports :=
  { msAllowin := MemStage.msAllowin s.ms
    exceptionFlag := exceptionFlag s i
    memResult := memResult s i
    memLwLiveData := MemStage.memLwLiveData cfg i.dmemRdata
    stackForwardData := s.stack.capturedData }

def esFlush : Bool := ExeStage.esFlush s.es (exePorts cfg s i)

def brRedirect : Bool := ExeStage.brRedirect s.es (exePorts cfg s i)

def brRedirectTarget : Word := ExeStage.brRedirectTarget s.es (exePorts cfg s i)

def dmemEn : Bool := ExeStage.dmemEn s.es (exePorts cfg s i)

def dmemWen : BitVec 4 := ExeStage.dmemWen s.es (exePorts cfg s i)

def dmemAddr : Word := ExeStage.dmemAddr s.es

def dmemWdata : Word := ExeStage.dmemWdata s.es

/-! ## CSR and stack buffer ports -/

def csrPorts : RegfileCsr.Ports :=
  { csrWen := csrWe s i
    csrWaddr := MemStage.csrWaddr s.ms
    csrWdata := MemStage.csrWdata s.ms (exceptionCode s i)
    exceptionCode := exceptionCode s i
    exceptionMtval := exceptionMtval s i
    brTaken := brRedirect cfg s i
    msToWsValid := MemStage.msToWsValid s.ms }

def stackPorts : StackValueBuffer.Ports :=
  { captureEn := ExeStage.exeStackLwHit s.es (exePorts cfg s i)
    captureAddr := dmemAddr s
    -- the consumer of a captured word is dropped with it
    captureFlush := exceptionFlag s i || brRedirect cfg s i
    storeValid := ExeStage.stackStoreValid s.es (exePorts cfg s i)
    storeAllocate := ExeStage.stackStoreAllocate s.es (exePorts cfg s i)
    storeAddr := dmemAddr s
    storeWstrb := dmemWen cfg s i
    storeWdata := dmemWdata s }

/-! ## Fetch stage -/

def ifPorts : IfStage.Ports :=
  let p := exePorts cfg s i
  { instIn := i.imemRdata
    dsAllowin := IdStage.dsAllowin s.ds
    brTaken := brRedirect cfg s i
    brTarget := brRedirectTarget cfg s i
    bpUpdateValid := ExeStage.bpUpdateValid s.es p
    bpUpdatePc := (ExeStage.bus s.es).ctrl.pc
    bpUpdateTaken := ExeStage.brTaken s.es p
    bpUpdateTarget := ExeStage.brTarget s.es
    bpUpdateIsJalr := (ExeStage.bus s.es).brJmp.isJalr
    exceptionFlag := exceptionFlag s i
    exceptionAddr := exceptionAddr s i }

def imemEn : Bool := IfStage.requestFire s.fs (ifPorts cfg s i)

def imemAddr : Word := IfStage.requestPc cfg s.fs

/-! ## Decode stage -/

def idPorts : IdStage.Ports :=
  let p := exePorts cfg s i
  { fsToDsValid := IfStage.fsToDsValid s.fs (ifPorts cfg s i)
    fsToDsBus := IfStage.fsToDsBus s.fs (ifPorts cfg s i)
    fsExcBus := IfStage.fsExcBus
    rs1Data := Regfiles.rdata s.regfile (Decode.rs1Addr (IdStage.idInst s.ds))
    rs2Data := Regfiles.rdata s.regfile (Decode.rs2Addr (IdStage.idInst s.ds))
    rs1FpuData := Regfiles.fpuRdata s.regFpu (Decode.rs1Addr (IdStage.idInst s.ds))
    csrData :=
      RegfileCsr.csrRdata s.csr (csrPorts cfg s i) (Decode.csrAddr (IdStage.idInst s.ds))
    esAllowin := ExeStage.esAllowin s.es
    regfileWen := WbStage.regfileWen s.ws
    regFpuWen := WbStage.regFpuWen s.ws
    regfileWaddr := WbStage.regfileAddr s.ws
    regfileWdata := WbStage.regfileWdata s.ws
    exeDestAddr := ExeStage.exeDestAddr s.es
    exeRegfileWen := ExeStage.exeRegfileWen s.es p
    exeRegFpuWen := ExeStage.exeRegFpuWen s.es p
    exeCsrAddr := ExeStage.exeCsrAddr s.es
    exeCsrWen := ExeStage.exeCsrWen s.es p
    exeLoadPending := ExeStage.exeLoadPending s.es p
    exeLwLiveOk := ExeStage.exeLwLiveOk cfg s.es p
    exeStackLwHit := ExeStage.exeStackLwHit s.es p
    exeStorePending := ExeStage.exeStorePending s.es p
    exeResultPending := ExeStage.exeResultPending s.es p
    esValid := ExeStage.esValid s.es
    memDestAddr := MemStage.memDstAddr s.ms
    memRegfileWen := MemStage.memRegfileWen s.ms (exceptionFlag s i)
    msValid := MemStage.msValid s.ms
    brTaken := brRedirect cfg s i
    exceptionFlag := exceptionFlag s i }

def stackQueryHit : Bool :=
  StackValueBuffer.queryHit s.stack (IdStage.stackQueryValid s.ds (idPorts cfg s i))
    (IdStage.stackQueryAddr s.ds (idPorts cfg s i))

def dsFlush : Bool := IdStage.dsFlush s.ds (idPorts cfg s i)

def dsToEsValid : Bool := IdStage.dsToEsValid cfg s.ds (idPorts cfg s i)

def dsToEsBus : DsToEsBus :=
  IdStage.dsToEsBus cfg s.ds (idPorts cfg s i) (stackQueryHit cfg s i)

/-! ## Clock edge -/

def exeInPorts : ExeStage.InPorts :=
  { dsToEsValid := dsToEsValid cfg s i
    dsFlush := dsFlush cfg s i
    dsToEsBus := dsToEsBus cfg s i
    dsExcBus := IdStage.dsExcBus s.ds (idPorts cfg s i) }

def memInPorts : MemStage.InPorts :=
  let p := exePorts cfg s i
  { esToMsValid := ExeStage.esToMsValid s.es p
    esToMsBus := ExeStage.esToMsBus cfg s.es p
    exeExcBus := ExeStage.exeExcBus s.es p
    esFlush := ExeStage.esFlush s.es p }

def next : Cpu :=
  { fs := IfStage.next cfg s.fs (ifPorts cfg s i)
    ds := IdStage.next cfg s.ds (idPorts cfg s i)
    es := ExeStage.next cfg s.es (exePorts cfg s i) (exeInPorts cfg s i)
    ms := MemStage.next s.ms (memInPorts cfg s i) (WbStage.wsAllowin s.ws) (exceptionFlag s i)
    ws :=
      WbStage.next s.ws (MemStage.msToWsValid s.ms)
        (MemStage.msToWsBus s.ms i.dmemRdata (exceptionFlag s i))
    regfile :=
      Regfiles.next s.regfile (WbStage.regfileWen s.ws) (WbStage.regfileAddr s.ws)
        (WbStage.regfileWdata s.ws)
    regFpu :=
      Regfiles.next s.regFpu (WbStage.regFpuWen s.ws) (WbStage.regfileAddr s.ws)
        (WbStage.regfileWdata s.ws)
    csr := RegfileCsr.next s.csr (csrPorts cfg s i)
    stack := StackValueBuffer.next s.stack (stackPorts cfg s i) }

/-- The core in cycle `t` after reset from the power-up state `s₀`, reading `inp k` in cycle `k`. -/
def run (cfg : Config) (s₀ : Cpu) (inp : Nat → CpuIn) (t : Nat) : Cpu :=
  Clocked.run (next cfg) (reset s₀) inp t

end Cpu
end RiscvCpu
