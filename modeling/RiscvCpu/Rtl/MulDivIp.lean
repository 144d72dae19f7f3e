import RiscvCpu.Rtl.Mul

/-!
# MulDivIp — `rv32m_mul_div_ip.sv`

The packaged RV32M unit.  Its ports, registers and wires are those of `mul.sv`, and its multiplier
`rv32m_mul_pipeline_ip.sv` is the text of `mul_pipeline.sv`, so these are taken from there.  What it
has of its own is here: two parameters in place of the two macros, the words of the divider's
response selected from `div_result`, and its own copy of the divide state machine.
-/

namespace RiscvCpu
namespace MulDivIp

open RiscvCpu.Mul (Regs Ports DivPorts)

structure Params where
  mulHighPipeStages : Nat
  dividerResultRemainderHigh : Bool

def divQuotientWord (b : Params) (r : Regs) : Word :=
  if b.dividerResultRemainderHigh then Mul.lowWord r.divResult else Mul.highWord r.divResult

def divRemainderWord (b : Params) (r : Regs) : Word :=
  if b.dividerResultRemainderHigh then Mul.highWord r.divResult else Mul.lowWord r.divResult

def mulResult (b : Params) (r : Regs) (p : Ports) : Word :=
  if p.mulOp.mul then r.pipe.result
  else if p.mulOp.mulh then r.pipe.result
  else if p.mulOp.div then
    if Mul.s1 p && (r.divState == 0b11#2) then ~~~divQuotientWord b r + 1#32
    else divQuotientWord b r
  else if p.mulOp.rem then
    if Mul.s2 p && (r.divState == 0b11#2) then ~~~divRemainderWord b r + 1#32
    else divRemainderWord b r
  else 0#32

/-- The value put aside for a division by zero or for the signed overflow. -/
def specialResult (b : Params) (p : Ports) : BitVec 64 :=
  if Mul.div0 p then
    if b.dividerResultRemainderHigh then p.mulSrc1 ++ 0xffff_ffff#32
    else 0xffff_ffff#32 ++ p.mulSrc1
  else if b.dividerResultRemainderHigh then 0x0000_0000#32 ++ 0x8000_0000#32
  else 0x8000_0000#32 ++ 0x0000_0000#32

def divStateNext (b : Params) (r : Regs) (p : Ports) (d : DivPorts) : Regs :=
  if r.divState == 0b00#2 then
    if Mul.divStart r p then
      if d.divisorTready && d.dividendTready then { r with divState := 0b01#2 } else r
    else if p.isMulticycle && p.isMul && Mul.mulOpDiv p && (Mul.div0 p || Mul.div1 p) then
      { r with divState := 0b10#2, divResult := specialResult b p }
    else { r with divState := 0b00#2 }
  else if r.divState == 0b01#2 then
    if d.doutTvalid then
      { r with divState := 0b11#2, doutTdataReg := d.doutTdata, divResult := d.doutTdata }
    else r
  -- `result_ready` is not looked at
  else { r with divState := 0b00#2 }

def next (b : Params) (r : Regs) (p : Ports) (d : DivPorts) : Regs :=
  let div :=
    if p.kill then
      { r with
        divState := 0b00#2
        divDiscardPending :=
          (r.divDiscardPending || (r.divState == 0b01#2)) && !d.doutTvalid }
    else if r.divDiscardPending then
      { r with
        divState := 0b00#2
        divDiscardPending := if d.doutTvalid then false else r.divDiscardPending }
    else { divStateNext b r p d with divDiscardPending := false }
  { div with pipe := MulPipeline.next b.mulHighPipeStages r.pipe (Mul.pipePorts p) }

end MulDivIp
end RiscvCpu
