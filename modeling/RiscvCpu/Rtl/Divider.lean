import RiscvCpu.Rtl.Defines

/-!
# Divider — `divider.sv`

The behavioural unsigned divider behind the AXI-stream ports: one request at a time, ten cycles of
delay, and `{remainder, quotient}` valid for one cycle.
-/

namespace RiscvCpu
namespace Divider

def IDLE : BitVec 2 := 0b00#2
def WAIT_RESULT : BitVec 2 := 0b01#2
def OUTPUT_VALID : BitVec 2 := 0b10#2

structure Regs where
  divisorReg : Word
  dividendReg : Word
  state : BitVec 2
  delayCounter : BitVec 5

structure Ports where
  divisorTvalid : Bool
  divisorTdata : Word
  dividendTvalid : Bool
  dividendTdata : Word

def reset : Regs :=
  { divisorReg := 0#32, dividendReg := 0#32, state := IDLE, delayCounter := 0#5 }

def divisorTready (r : Regs) (p : Ports) : Bool := (r.state == IDLE) && p.dividendTvalid

def dividendTready (r : Regs) (p : Ports) : Bool := (r.state == IDLE) && p.divisorTvalid

def inputHandshakeDone (r : Regs) (p : Ports) : Bool :=
  p.divisorTvalid && divisorTready r p && p.dividendTvalid && dividendTready r p

def doutTvalid (r : Regs) : Bool := r.state == OUTPUT_VALID

def doutTdata (r : Regs) : BitVec 64 :=
  (r.dividendReg % r.divisorReg) ++ (r.dividendReg / r.divisorReg)

def next (r : Regs) (p : Ports) : Regs :=
  if r.state == IDLE then
    if inputHandshakeDone r p then
      { divisorReg := p.divisorTdata
        dividendReg := p.dividendTdata
        delayCounter := 10#5
        state := WAIT_RESULT }
    else r
  else if r.state == WAIT_RESULT then
    if 0#5 < r.delayCounter then { r with delayCounter := r.delayCounter - 1#5 }
    else { r with state := OUTPUT_VALID }
  else { r with state := IDLE }

end Divider
end RiscvCpu
