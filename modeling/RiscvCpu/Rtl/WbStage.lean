import RiscvCpu.Rtl.Defines

/-!
# WbStage — `wb_stage.sv`, `regfiles.sv` and `reg_fpu.sv`

The write-back stage and the two register files it writes.
-/

namespace RiscvCpu
namespace WbStage

structure Regs where
  wsValid : Bool
  wsAllowinR : Bool
  msWsBusR : MsToWsBus

def reset : Regs :=
  { wsValid := false, wsAllowinR := true, msWsBusR := ⟨0#32, 0#32, 0#5, false, false⟩ }

def wsAllowin (r : Regs) : Bool := r.wsAllowinR
def regfileWen (r : Regs) : Bool := r.wsValid && r.msWsBusR.regfileWen
def regFpuWen (r : Regs) : Bool := r.wsValid && r.msWsBusR.regFpuWen
def regfileAddr (r : Regs) : BitVec 5 := r.msWsBusR.rdAddr
def regfileWdata (r : Regs) : Word := r.msWsBusR.result
def wbPc (r : Regs) : Word := r.msWsBusR.pc

def next (r : Regs) (msToWsValid : Bool) (bus : MsToWsBus) : Regs :=
  { wsValid := if wsAllowin r then msToWsValid else r.wsValid
    wsAllowinR := if wsAllowin r then true else r.wsAllowinR
    msWsBusR := if msToWsValid && wsAllowin r then bus else r.msWsBusR }

end WbStage

namespace Regfiles

/-- A bank of 32 registers.  Both banks ignore writes to register 0. -/
abbrev Bank := BitVec 5 → Word

def reset : Bank := fun _ => 0#32

/-- The read port of the integer bank; `x0` reads as zero. -/
def rdata (bank : Bank) (raddr : BitVec 5) : Word :=
  if raddr != 0#5 then bank raddr else 0#32

/-- The read port of the floating-point bank. -/
def fpuRdata (bank : Bank) (raddr : BitVec 5) : Word := bank raddr

def next (bank : Bank) (wen : Bool) (waddr : BitVec 5) (wdata : Word) : Bank :=
  if wen && (waddr != 0#5) then Function.update bank waddr wdata else bank

end Regfiles
end RiscvCpu
