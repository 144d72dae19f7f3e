import RiscvCpu.Rtl.Defines

/-!
# RegfileCsr — `regfile_csr.sv`

The CSR file with its same-cycle write bypass, trap entry and return, and the performance counters.
-/

namespace RiscvCpu
namespace RegfileCsr

/-- The thirteen CSRs that are registers. -/
structure File where
  mstatus : Word
  misa : Word
  mtvec : Word
  mepc : Word
  mcause : Word
  mhartid : Word
  mie : Word
  mip : Word
  mtval : Word
  mvendorid : Word
  marchid : Word
  mimpid : Word
  mscratch : Word

structure Regs where
  file : File
  cycle : Word
  brCnt : Word
  exceptionCnt : Word
  instret : Word
  prevExceptionFlag : Bool

structure Ports where
  csrWen : Bool
  csrWaddr : BitVec 12
  csrWdata : Word
  exceptionCode : BitVec 7
  exceptionMtval : Word
  brTaken : Bool
  msToWsValid : Bool

def reset : Regs :=
  { file := ⟨0#32, 0#32, 0#32, 0#32, 0#32, 0#32, 0#32, 0#32, 0#32, 0#32, 0#32, 0#32, 0#32⟩
    cycle := 0#32
    brCnt := 0#32
    exceptionCnt := 0#32
    instret := 0#32
    prevExceptionFlag := false }

/-- `mstatus[3]` is MIE and `mstatus[7]` is MPIE. -/
def mieBit (mstatus : Word) : Bool := mstatus.getLsbD 3
def mpieBit (mstatus : Word) : Bool := mstatus.getLsbD 7

/-- Replace one bit of a register. -/
def setBit (x : Word) (n : Nat) (b : Bool) : Word :=
  (x &&& ~~~(1#32 <<< n)) ||| ((BitVec.ofBool b).setWidth 32 <<< n)

def mretFlag (code : BitVec 7) : Bool := code == Exc.MRET
def externalIrqFlag (code : BitVec 7) : Bool := code == Exc.PLIC_IRQ_BIT

def mretJmpFlag (r : Regs) (code : BitVec 7) : Bool := mretFlag code && r.prevExceptionFlag

def externalIrqEnable (r : Regs) : Bool := mieBit r.file.mstatus && r.file.mie.getLsbD 11

def exceptionFlag (r : Regs) (code : BitVec 7) : Bool := code.getLsbD 5 || mretJmpFlag r code

def exceptionAddr (r : Regs) (code : BitVec 7) : Word :=
  -- the two low bits of `mepc` are dropped
  if mretJmpFlag r code then r.file.mepc.extractLsb' 2 30 ++ 0#2 else r.file.mtvec

/-! ## Register writes -/

/-- The write of one CSR instruction. -/
def File.write (f : File) (addr : BitVec 12) (x : Word) : File :=
  if addr == Csr.MSTATUS then { f with mstatus := x }
  else if addr == Csr.MISA then { f with misa := x }
  else if addr == Csr.MTVEC then { f with mtvec := x }
  else if addr == Csr.MEPC then { f with mepc := x }
  else if addr == Csr.MCAUSE then { f with mcause := x }
  else if addr == Csr.MHARTID then { f with mhartid := x }
  else if addr == Csr.MIE then { f with mie := x }
  else if addr == Csr.MIP then { f with mip := x }
  else if addr == Csr.MTVAL then { f with mtval := x }
  else if addr == Csr.MVENDORID then { f with mvendorid := x }
  else if addr == Csr.MARCHID then { f with marchid := x }
  else if addr == Csr.MIMPID then { f with mimpid := x }
  else if addr == Csr.MSCRATCH then { f with mscratch := x }
  -- no register: the write is lost
  else f

/-- Trap entry. -/
def File.trap (f : File) (code : BitVec 7) (pc mtval : Word) : File :=
  { f with
    mepc := pc
    mcause := if externalIrqFlag code then 0x8000_000B#32 else (code.extractLsb' 0 5).setWidth 32
    mtval := if externalIrqFlag code then 0#32 else mtval
    mstatus := setBit (setBit f.mstatus 7 (mieBit f.mstatus)) 3 false }

/-- Trap return. -/
def File.mret (f : File) : File :=
  { f with mstatus := setBit (setBit f.mstatus 3 (mpieBit f.mstatus)) 7 true }

/-! ## Register reads -/

def File.read (f : File) (addr : BitVec 12) : Option Word :=
  if addr == Csr.MSTATUS then some f.mstatus
  else if addr == Csr.MISA then some f.misa
  else if addr == Csr.MTVEC then some f.mtvec
  else if addr == Csr.MEPC then some f.mepc
  else if addr == Csr.MCAUSE then some f.mcause
  else if addr == Csr.MHARTID then some f.mhartid
  else if addr == Csr.MIE then some f.mie
  else if addr == Csr.MIP then some f.mip
  else if addr == Csr.MTVAL then some f.mtval
  else if addr == Csr.MVENDORID then some f.mvendorid
  else if addr == Csr.MARCHID then some f.marchid
  else if addr == Csr.MIMPID then some f.mimpid
  else if addr == Csr.MSCRATCH then some f.mscratch
  else none

def instretRead (r : Regs) : Word := r.instret - r.exceptionCnt * 3#32 - r.brCnt * 3#32

def csrRdata (r : Regs) (p : Ports) (raddr : BitVec 12) : Word :=
  -- the word being written, whether or not a register takes it
  if raddr == p.csrWaddr && p.csrWen then p.csrWdata
  else
    match r.file.read raddr with
    | some x => x
    | none =>
        -- the counters can be read but not written
        if raddr == Csr.CYCLE then r.cycle
        else if raddr == Csr.INSTRET then instretRead r
        else 0#32

/-! ## Clock edge -/

def fileNext (r : Regs) (p : Ports) : File :=
  -- `csr_we` is low in the cycle of a trap
  if p.csrWen then r.file.write p.csrWaddr p.csrWdata
  else if p.exceptionCode.getLsbD 5 then
    r.file.trap p.exceptionCode p.csrWdata p.exceptionMtval
  else if mretFlag p.exceptionCode then r.file.mret
  else r.file

def next (r : Regs) (p : Ports) : Regs :=
  { file := fileNext r p
    cycle := r.cycle + 1#32
    brCnt := if p.brTaken then r.brCnt + 1#32 else r.brCnt
    exceptionCnt := if p.exceptionCode.getLsbD 5 then r.exceptionCnt + 1#32 else r.exceptionCnt
    instret := if p.msToWsValid then r.instret + 1#32 else r.instret
    -- `mret` redirects only when a trap has been taken since the last one
    prevExceptionFlag :=
      if p.exceptionCode.getLsbD 5 then true
      else if mretFlag p.exceptionCode then false
      else r.prevExceptionFlag }

end RegfileCsr
end RiscvCpu
