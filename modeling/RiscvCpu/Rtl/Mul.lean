import RiscvCpu.Rtl.MulPipeline

/-!
# Mul — `mul.sv`

The RV32M control of the execute stage: the multiplier pipeline, and the four-state wrapper around
an AXI-stream divider with its sign fix-up, its two special cases and the draining of the response
to a killed request.  The divider itself is outside: the wrapper sees its ready and response wires.
-/

namespace RiscvCpu
namespace Mul

/-- The compile-time choices of the unit: `DEBUG_EN` fixes the word order of the divider's response,
`MUL_HIGH_CYCLE` the depth of the multiplier. -/
structure Build where
  debugEn : Bool
  highCycle : Nat

/-- The build used in the core. -/
def Build.core : Build := { debugEn := true, highCycle := mulHighCycle }

structure Regs where
  pipe : MulPipeline.Regs
  divState : BitVec 2
  divDiscardPending : Bool
  divResult : BitVec 64
  doutTdataReg : BitVec 64

structure Ports where
  isMul : Bool
  isMulticycle : Bool
  mulSrc1 : Word
  mulSrc2 : Word
  mulOp : MulOp
  src1Signed : Bool
  src2Signed : Bool
  resultReady : Bool
  kill : Bool

/-- The divider's side of the AXI-stream ports. -/
structure DivPorts where
  divisorTready : Bool
  dividendTready : Bool
  doutTvalid : Bool
  doutTdata : BitVec 64

def reset (r : Regs) : Regs :=
  { pipe := MulPipeline.clear r.pipe
    divState := 0b00#2
    divDiscardPending := false
    divResult := 0#64
    doutTdataReg := 0#64 }

def mulOpMul (p : Ports) : Bool := p.mulOp.mul || p.mulOp.mulh
def mulOpDiv (p : Ports) : Bool := p.mulOp.div || p.mulOp.rem

/-- `signed && src[31] ? ~src + 1'b1 : src`. -/
def magnitude (signed : Bool) (src : Word) : Word :=
  if signed && src.getLsbD 31 then ~~~src + 1#32 else src

def divSrc1 (p : Ports) : Word := magnitude p.src1Signed p.mulSrc1
def divSrc2 (p : Ports) : Word := magnitude p.src2Signed p.mulSrc2

def div0 (p : Ports) : Bool := divSrc2 p == 0#32

def div1 (p : Ports) : Bool :=
  p.src1Signed && p.src2Signed && (p.mulSrc1 == 0x8000_0000#32) && (p.mulSrc2 == 0xffff_ffff#32)

def s1 (p : Ports) : Bool :=
  p.src1Signed && p.src2Signed && (p.mulSrc1.getLsbD 31 ^^ p.mulSrc2.getLsbD 31)

def s2 (p : Ports) : Bool := p.src1Signed && p.mulSrc1.getLsbD 31

def mulStart (p : Ports) : Bool := p.isMul && mulOpMul p

def divStart (r : Regs) (p : Ports) : Bool :=
  -- no request while the response to a killed one is outstanding
  p.isMulticycle && p.isMul && mulOpDiv p &&
  (r.divState == 0b00#2) && !r.divDiscardPending &&
  !p.kill && !div0 p && !div1 p

def divDone (r : Regs) : Bool := (r.divState == 0b11#2) || (r.divState == 0b10#2)

def mulStall (r : Regs) (p : Ports) : Bool :=
  !p.kill && p.isMul && ((mulOpMul p && !r.pipe.done) || (mulOpDiv p && !divDone r))

def pipePorts (p : Ports) : MulPipeline.Ports :=
  { start := mulStart p
    resultReady := p.resultReady
    kill := p.kill
    src1 := p.mulSrc1
    src2 := p.mulSrc2
    src1Signed := p.src1Signed
    src2Signed := p.src2Signed
    highResult := p.mulOp.mulh }

def lowWord (x : BitVec 64) : Word := x.extractLsb' 0 32
def highWord (x : BitVec 64) : Word := x.extractLsb' 32 32

/-- The quotient and the remainder slice of a response, by the divider's word order. -/
def quotientWord (b : Build) (x : BitVec 64) : Word := if b.debugEn then lowWord x else highWord x
def remainderWord (b : Build) (x : BitVec 64) : Word := if b.debugEn then highWord x else lowWord x

def mulResult (b : Build) (r : Regs) (p : Ports) : Word :=
  if p.mulOp.mul then r.pipe.result
  else if p.mulOp.mulh then r.pipe.result
  else if p.mulOp.div then
    -- in state 10 `div_result` is final, so no sign is put back
    if s1 p && (r.divState == 0b11#2) then ~~~quotientWord b r.doutTdataReg + 1#32
    else quotientWord b r.divResult
  else if p.mulOp.rem then
    if s2 p && (r.divState == 0b11#2) then ~~~remainderWord b r.doutTdataReg + 1#32
    else remainderWord b r.divResult
  else 0#32

/-- The result put aside for a division by zero or for the signed overflow. -/
def specialResult (b : Build) (p : Ports) : BitVec 64 :=
  if b.debugEn then
    if div0 p then p.mulSrc1 ++ 0xffff_ffff#32 else 0x0000_0000#32 ++ 0x8000_0000#32
  else
    if div0 p then 0xffff_ffff#32 ++ p.mulSrc1 else 0x8000_0000#32 ++ 0x0000_0000#32

/-- The divider accepts both operands in this cycle. -/
def divAccept (r : Regs) (p : Ports) (d : DivPorts) : Bool :=
  divStart r p && d.divisorTready && d.dividendTready

/-- The request is answered without the divider. -/
def divSpecial (p : Ports) : Bool :=
  p.isMulticycle && p.isMul && mulOpDiv p && (div0 p || div1 p)

def next (b : Build) (r : Regs) (p : Ports) (d : DivPorts) : Regs :=
  let pipe := MulPipeline.next b.highCycle r.pipe (pipePorts p)
  if p.kill then
    { r with
      pipe := pipe
      divState := 0b00#2
      -- an accepted request stays outstanding unless this cycle answers it
      divDiscardPending :=
        (r.divDiscardPending || (r.divState == 0b01#2)) && !d.doutTvalid }
  else if r.divDiscardPending then
    { r with
      pipe := pipe
      divState := 0b00#2
      -- the next response is the one to be thrown away
      divDiscardPending := !d.doutTvalid }
  else if r.divState == 0b00#2 then
    if divStart r p then
      { r with
        pipe := pipe
        divDiscardPending := false
        -- the divider accepts when both of its channels are ready
        divState := if d.divisorTready && d.dividendTready then 0b01#2 else r.divState }
    else if divSpecial p then
      { r with
        pipe := pipe
        divDiscardPending := false
        -- answered without the divider
        divState := 0b10#2
        divResult := specialResult b p }
    else { r with pipe := pipe, divDiscardPending := false, divState := 0b00#2 }
  else if r.divState == 0b01#2 then
    -- waiting for the response
    if d.doutTvalid then
      { pipe := pipe
        divDiscardPending := false
        divState := 0b11#2
        doutTdataReg := d.doutTdata
        divResult := d.doutTdata }
    else { r with pipe := pipe, divDiscardPending := false }
  -- the result has been on the wires for one cycle
  else { r with pipe := pipe, divDiscardPending := false, divState := 0b00#2 }

end Mul
end RiscvCpu
