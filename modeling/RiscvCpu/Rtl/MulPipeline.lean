import RiscvCpu.Rtl.Defines

/-!
# MulPipeline — `mul_pipeline.sv`

A 32 by 32 multiplier built from four 16 by 16 partial products, with the high word ready after
`highPipeStages` cycles.  The operand and partial-product registers have no reset.
-/

namespace RiscvCpu
namespace MulPipeline

structure Regs where
  active : Bool
  done : Bool
  stage1Valid : Bool
  stage2Valid : Bool
  result : Word
  src1R : Word
  src2R : Word
  src1NegativeR : Bool
  src2NegativeR : Bool
  highResultR : Bool
  partialLl : Word
  partialLh : Word
  partialHl : Word
  partialHh : Word
  middleHighR : BitVec 17
  partialHhR : Word

structure Ports where
  start : Bool
  resultReady : Bool
  kill : Bool
  src1 : Word
  src2 : Word
  src1Signed : Bool
  src2Signed : Bool
  highResult : Bool

def lowHalf (x : Word) : Word := (x.extractLsb' 0 16).setWidth 32
def highHalf (x : Word) : Word := (x.extractLsb' 16 16).setWidth 32

def startAccept (r : Regs) (p : Ports) : Bool := p.start && !r.active

def middleSum (r : Regs) : BitVec 33 :=
  r.partialLh.setWidth 33 + r.partialHl.setWidth 33 + (r.partialLl.extractLsb' 16 16).setWidth 33

def unsignedHigh (r : Regs) : Word :=
  r.partialHh + ((middleSum r).extractLsb' 16 17).setWidth 32

/-- `negative ? operand : 32'b0`. -/
def correction (negative : Bool) (operand : Word) : Word := if negative then operand else 0#32

def correctedHigh (r : Regs) : Word :=
  unsignedHigh r - correction r.src1NegativeR r.src2R - correction r.src2NegativeR r.src1R

def lowResult (r : Regs) : Word :=
  (middleSum r).extractLsb' 0 16 ++ r.partialLl.extractLsb' 0 16

def threeStageHigh (r : Regs) : Word :=
  r.partialHhR + r.middleHighR.setWidth 32 - correction r.src1NegativeR r.src2R -
    correction r.src2NegativeR r.src1R

def lowComplete (r : Regs) : Bool := !r.highResultR && r.stage1Valid

def highComplete (highPipeStages : Nat) (r : Regs) : Bool :=
  r.highResultR && (if highPipeStages == 2 then r.stage1Valid else r.stage2Valid)

/-- The registers after an edge with `rst_n` low or `kill` high. -/
def clear (r : Regs) : Regs :=
  { r with
    active := false
    done := false
    stage1Valid := false
    stage2Valid := false
    result := 0#32 }

def next (highPipeStages : Nat) (r : Regs) (p : Ports) : Regs :=
  if p.kill then clear r
  else
    let accept := startAccept r p
    let finish := r.done && p.resultReady
    { active :=
        if lowComplete r || highComplete highPipeStages r then (if accept then true else r.active)
        else if finish then false
        else if accept then true
        else r.active
      done :=
        if lowComplete r || highComplete highPipeStages r then true
        else if finish then false
        else r.done
      stage1Valid := accept
      stage2Valid := r.stage1Valid
      result :=
        if lowComplete r then lowResult r
        else if highComplete highPipeStages r then
          (if highPipeStages == 2 then correctedHigh r else threeStageHigh r)
        else r.result
      src1R := if accept then p.src1 else r.src1R
      src2R := if accept then p.src2 else r.src2R
      src1NegativeR := if accept then p.src1Signed && p.src1.getLsbD 31 else r.src1NegativeR
      src2NegativeR := if accept then p.src2Signed && p.src2.getLsbD 31 else r.src2NegativeR
      highResultR := if accept then p.highResult else r.highResultR
      partialLl := if accept then lowHalf p.src1 * lowHalf p.src2 else r.partialLl
      partialLh := if accept then lowHalf p.src1 * highHalf p.src2 else r.partialLh
      partialHl := if accept then highHalf p.src1 * lowHalf p.src2 else r.partialHl
      partialHh := if accept then highHalf p.src1 * highHalf p.src2 else r.partialHh
      middleHighR := if r.stage1Valid then (middleSum r).extractLsb' 16 17 else r.middleHighR
      partialHhR := if r.stage1Valid then r.partialHh else r.partialHhR }

end MulPipeline
end RiscvCpu
