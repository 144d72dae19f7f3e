import RiscvCpu.Lib.SkidBuffer
import RiscvCpu.Rtl.Divider
import RiscvCpu.Rtl.Mul

/-!
# ExeStage — `exe_stage.sv`

The execute stage: its registered boundary to decode with the forwarding snapshots that are taken
when an instruction is accepted, the integer datapath, the bit-manipulation unit, the
multiply/divide unit, the data-memory request, branch resolution and the bus to the memory stage.
-/

namespace RiscvCpu
namespace ExeStage

/-- What is latched with an instruction: the bus, its flush mark, its exception word and the
snapshots `exe_result_reg`, `csr_wdata_reg` and `mem_result_reg`. -/
structure Payload where
  dsFlush : Bool
  bus : DsToEsBus
  exc : ExcBus
  exeResult : Word
  csrWdata : Word
  memResult : Word

structure Regs where
  buf : SkidBuffer.Regs Payload
  mul : Mul.Regs
  divider : Divider.Regs

/-- The wires that enter the combinational part of the stage. -/
structure Ports where
  msAllowin : Bool
  exceptionFlag : Bool
  memResult : Word
  memLwLiveData : Word
  stackForwardData : Word

/-- The wires that are only latched at the clock edge. -/
structure InPorts where
  dsToEsValid : Bool
  dsFlush : Bool
  dsToEsBus : DsToEsBus
  dsExcBus : ExcBus

def resetBus : DsToEsBus :=
  { bitmanOp :=
      ⟨false, false, false, false, false, false, false, false, false, false, false, false, false,
        false, false, false, false, false, false, false, false, false, false, false, false, false,
        false, false⟩
    aluOp := ⟨false, false, false, false, false, false, false, false, false, false⟩
    mul := ⟨⟨false, false, false, false⟩, false, false⟩
    mem := ⟨0#32, ⟨false, false, false, false, false⟩, false, false, false⟩
    csr := ⟨0#32, 0#32, 0#12, ⟨false, false, false⟩, false, false, false⟩
    brJmp := ⟨false, 0#32, 0#32, 0#32, ⟨false, false, false, false, false, false⟩, false, false⟩
    ctrl :=
      ⟨0#32, ⟨false, false⟩, false, false, false, false, false, false, false, 0#5, false, false,
        false⟩
    src := ⟨0#32, 0#32, 0#2, 0#2, false, false⟩ }

def resetPayload : Payload :=
  { dsFlush := false
    bus := resetBus
    exc := ⟨0#7, 0#32⟩
    exeResult := 0#32
    csrWdata := 0#32
    memResult := 0#32 }

def reset (r : Regs) : Regs :=
  { buf := SkidBuffer.reset resetPayload
    mul := Mul.reset r.mul
    divider := Divider.reset }

def esValid (r : Regs) : Bool := r.buf.valid

def bus (r : Regs) : DsToEsBus := r.buf.main.bus

def esFlush (r : Regs) (p : Ports) : Bool := r.buf.main.dsFlush || p.exceptionFlag

/-! ## Operands -/

/-- `srcN_base`: the forwarded snapshot or the operand read in decode. -/
def srcBase (fwd : BitVec 2) (exeResultReg memResultReg regSrc : Word) : Word :=
  -- 01: from execute, 10: from the memory stage, both as of the accepting edge
  if fwd == 0b01#2 then exeResultReg
  else if fwd == 0b10#2 then memResultReg
  else regSrc

def src1Base (r : Regs) : Word :=
  srcBase (bus r).src.src1Fwd r.buf.main.exeResult r.buf.main.memResult (bus r).src.regSrc1

def src2Base (r : Regs) : Word :=
  srcBase (bus r).src.src2Fwd r.buf.main.exeResult r.buf.main.memResult (bus r).src.regSrc2

/-- `alu_srcN`: the stack buffer's word, the live load word, or the ordinary operand. -/
def aluSrc (cfg : Config) (p : Ports) (stackFwd : Bool) (fwd : BitVec 2) (base : Word) : Word :=
  -- only the ALU reads the two words that arrive in this cycle
  if stackFwd then p.stackForwardData
  else if cfg.lwLiveBypassEnable && (fwd == 0b11#2) then p.memLwLiveData
  else base

def aluSrc1 (cfg : Config) (r : Regs) (p : Ports) : Word :=
  aluSrc cfg p (bus r).src.stackSrc1Fwd (bus r).src.src1Fwd (src1Base r)

def aluSrc2 (cfg : Config) (r : Regs) (p : Ports) : Word :=
  aluSrc cfg p (bus r).src.stackSrc2Fwd (bus r).src.src2Fwd (src2Base r)

def csrData (r : Regs) : Word :=
  if (bus r).csr.csrRdataFwd then r.buf.main.csrWdata else (bus r).csr.csrRdata

/-! ## Bit manipulation -/

def reverse8 (x : BitVec 8) : BitVec 8 := x.reverse

/-- `zip32[2*i] = data[i]`, `zip32[2*i+1] = data[i+16]` for `i` from 0 to 15. -/
def zip32 (x : Word) : Word :=
  BitVec.ofBoolListLE ((List.range 16).flatMap fun i => [x.getLsbD i, x.getLsbD (i + 16)])

/-- `unzip32[i] = data[2*i]`, `unzip32[i+16] = data[2*i+1]` for `i` from 0 to 15. -/
def unzip32 (x : Word) : Word :=
  BitVec.ofBoolListLE
    ((List.range 16).map (fun i => x.getLsbD (2 * i)) ++
      (List.range 16).map (fun i => x.getLsbD (2 * i + 1)))

def cpop32 (x : Word) : Word :=
  (List.range 32).foldl (fun acc i => acc + (BitVec.ofBool (x.getLsbD i)).setWidth 32) 0#32

def byteAt (x : Word) (n : Nat) : BitVec 8 := x.extractLsb' (8 * n) 8

/-- `{8{|byte}}`. -/
def orByte (b : BitVec 8) : BitVec 8 := if b == 0#8 then 0#8 else 0xff#8

def bitmanResult (op : BitmanOp) (a b : Word) : Word :=
  let bitIdx := b.extractLsb' 0 5
  let bitMask := 1#32 <<< bitIdx
  if op.sh1add then (a <<< 1) + b
  else if op.sh2add then (a <<< 2) + b
  else if op.sh3add then (a <<< 3) + b
  else if op.andn then a &&& ~~~b
  else if op.orn then a ||| ~~~b
  else if op.xnor then ~~~(a ^^^ b)
  else if op.min then if a.slt b then a else b
  else if op.max then if a.slt b then b else a
  else if op.minu then if a.ult b then a else b
  else if op.maxu then if a.ult b then b else a
  else if op.sextb then (a.extractLsb' 0 8).signExtend 32
  else if op.sexth then (a.extractLsb' 0 16).signExtend 32
  else if op.zexth then (a.extractLsb' 0 16).setWidth 32
  else if op.orcb then
    orByte (byteAt a 3) ++ orByte (byteAt a 2) ++ orByte (byteAt a 1) ++ orByte (byteAt a 0)
  else if op.rev8 then byteAt a 0 ++ byteAt a 1 ++ byteAt a 2 ++ byteAt a 3
  else if op.brev8 then
    reverse8 (byteAt a 3) ++ reverse8 (byteAt a 2) ++ reverse8 (byteAt a 1) ++
      reverse8 (byteAt a 0)
  else if op.pack then b.extractLsb' 0 16 ++ a.extractLsb' 0 16
  else if op.packh then 0#16 ++ byteAt b 0 ++ byteAt a 0
  else if op.zip then zip32 a
  else if op.unzip then unzip32 a
  else if op.bclr || op.bclri then a &&& ~~~bitMask
  else if op.bext || op.bexti then (BitVec.ofBool (a.getLsbD bitIdx.toNat)).setWidth 32
  else if op.binv || op.binvi then a ^^^ bitMask
  else if op.bset then a ||| bitMask
  else if op.cpop then cpop32 a
  else 0#32

/-! ## ALU -/

namespace AluOp

def ADD : AluOp := ⟨true, false, false, false, false, false, false, false, false, false⟩
def SUB : AluOp := ⟨false, true, false, false, false, false, false, false, false, false⟩
def AND : AluOp := ⟨false, false, true, false, false, false, false, false, false, false⟩
def OR : AluOp := ⟨false, false, false, true, false, false, false, false, false, false⟩
def XOR : AluOp := ⟨false, false, false, false, true, false, false, false, false, false⟩
def SLL : AluOp := ⟨false, false, false, false, false, true, false, false, false, false⟩
def SRL : AluOp := ⟨false, false, false, false, false, false, true, false, false, false⟩
def SRA : AluOp := ⟨false, false, false, false, false, false, false, true, false, false⟩
def SLT : AluOp := ⟨false, false, false, false, false, false, false, false, true, false⟩
def SLTU : AluOp := ⟨false, false, false, false, false, false, false, false, false, true⟩

end AluOp

def flagWord (b : Bool) : Word := if b then 1#32 else 0#32

def aluResult (op : AluOp) (a b : Word) : Word :=
  if op = AluOp.ADD then a + b
  else if op = AluOp.SUB then a - b
  else if op = AluOp.AND then a &&& b
  else if op = AluOp.OR then a ||| b
  else if op = AluOp.XOR then a ^^^ b
  else if op = AluOp.SLL then a <<< b.extractLsb' 0 5
  else if op = AluOp.SRL then a >>> b.extractLsb' 0 5
  else if op = AluOp.SRA then a.sshiftRight' (b.extractLsb' 0 5)
  else if op = AluOp.SLT then flagWord (a.slt b)
  else if op = AluOp.SLTU then flagWord (a.ult b)
  else 0#32

/-! ## Multiply and divide -/

def mulPorts (r : Regs) (p : Ports) : Mul.Ports :=
  { isMul := esValid r && (bus r).ctrl.isMul && !esFlush r p
    isMulticycle := (bus r).ctrl.isMulticycle
    mulSrc1 := src1Base r
    mulSrc2 := src2Base r
    mulOp := (bus r).mul.mulOp
    src1Signed := (bus r).mul.src1Signed
    src2Signed := (bus r).mul.src2Signed
    resultReady := p.msAllowin
    kill := esFlush r p }

def dividerPorts (r : Regs) (p : Ports) : Divider.Ports :=
  { divisorTvalid := Mul.divStart r.mul (mulPorts r p)
    divisorTdata := Mul.divSrc2 (mulPorts r p)
    dividendTvalid := Mul.divStart r.mul (mulPorts r p)
    dividendTdata := Mul.divSrc1 (mulPorts r p) }

def divPorts (r : Regs) (p : Ports) : Mul.DivPorts :=
  { divisorTready := Divider.divisorTready r.divider (dividerPorts r p)
    dividendTready := Divider.dividendTready r.divider (dividerPorts r p)
    doutTvalid := Divider.doutTvalid r.divider
    doutTdata := Divider.doutTdata r.divider }

def mulStall (r : Regs) (p : Ports) : Bool := Mul.mulStall r.mul (mulPorts r p)

def mulResult (r : Regs) (p : Ports) : Word := Mul.mulResult Mul.Build.core r.mul (mulPorts r p)

/-- `fpu.sv` drives constants. -/
def fpuResult : Word := 0#32
def fpuStall : Bool := false

/-! ## Handshake -/

def esReadyGo (r : Regs) (p : Ports) : Bool := !mulStall r p && !fpuStall

/-- The wires of the boundary to decode, for a stage that may stall for its own reason. -/
def wires (p : Ports) (q : InPorts) (readyGo : Bool) : SkidBuffer.Wires :=
  { upValid := q.dsToEsValid
    readyGo := readyGo
    downAllowin := p.msAllowin
    drop := p.exceptionFlag }

def esAllowin (r : Regs) : Bool := r.buf.allowin

def esToMsValid (r : Regs) (p : Ports) : Bool := esValid r && esReadyGo r p

/-! ## Data-memory request -/

def instLb (r : Regs) : Bool := (bus r).mem.memOp.b && !(bus r).mem.isStore
def instLh (r : Regs) : Bool := (bus r).mem.memOp.h && !(bus r).mem.isStore
def instLw (r : Regs) : Bool := (bus r).mem.memOp.w && !(bus r).mem.isStore
def instLbu (r : Regs) : Bool := (bus r).mem.memOp.bu && !(bus r).mem.isStore
def instLhu (r : Regs) : Bool := (bus r).mem.memOp.hu && !(bus r).mem.isStore
def instSb (r : Regs) : Bool := (bus r).mem.memOp.b && (bus r).mem.isStore
def instSh (r : Regs) : Bool := (bus r).mem.memOp.h && (bus r).mem.isStore
def instSw (r : Regs) : Bool := (bus r).mem.memOp.w && (bus r).mem.isStore

def loadInst (r : Regs) : LoadInst :=
  { b := instLb r || instSb r
    h := instLh r || instSh r
    w := instLw r || instSw r
    bu := instLbu r
    hu := instLhu r
    store := (bus r).mem.isStore }

def dmemAddr (r : Regs) : Word := src1Base r + (bus r).mem.memImm

def dmemWdata (r : Regs) : Word :=
  if instSb r then
    (src2Base r).extractLsb' 0 8 ++ (src2Base r).extractLsb' 0 8 ++
      (src2Base r).extractLsb' 0 8 ++ (src2Base r).extractLsb' 0 8
  else if instSh r then (src2Base r).extractLsb' 0 16 ++ (src2Base r).extractLsb' 0 16
  else src2Base r

def sbWen (addr : Word) : BitVec 4 :=
  if addr.extractLsb' 0 2 == 0b00#2 then 0b0001#4
  else if addr.extractLsb' 0 2 == 0b01#2 then 0b0010#4
  else if addr.extractLsb' 0 2 == 0b10#2 then 0b0100#4
  else 0b1000#4

def shWen (addr : Word) : BitVec 4 := if addr.getLsbD 1 then 0b1100#4 else 0b0011#4

def dmemWen (r : Regs) (p : Ports) : BitVec 4 :=
  -- `es_valid` is not looked at
  if esFlush r p then 0b0000#4
  else if instSb r then sbWen (dmemAddr r)
  else if instSh r then shWen (dmemAddr r)
  else if instSw r then 0b1111#4
  else 0b0000#4

def dmemEn (r : Regs) (p : Ports) : Bool := esValid r && (bus r).mem.memOp.any && !esFlush r p

/-! ## Stack value buffer -/

def stackDramAddr (r : Regs) : Bool := (dmemAddr r).extractLsb' 18 14 == 0b10000000000100#14

def memStageAccept (r : Regs) (p : Ports) : Bool :=
  esToMsValid r p && p.msAllowin && !esFlush r p

def exeStackLwHit (r : Regs) (p : Ports) : Bool :=
  memStageAccept r p && instLw r && (bus r).mem.stackLoadHit &&
  (bus r).ctrl.regfileWen && ((bus r).ctrl.rdAddr != 0#5)

def exeStorePending (r : Regs) (p : Ports) : Bool :=
  -- a word store keeps the buffer up to date, a partial one invalidates its entry
  esValid r && !esFlush r p && (bus r).mem.isStore && (dmemWen r p != 0b1111#4)

def stackStoreValid (r : Regs) (p : Ports) : Bool :=
  memStageAccept r p && (bus r).mem.isStore && stackDramAddr r

def stackStoreAllocate (r : Regs) (p : Ports) : Bool :=
  stackStoreValid r p && instSw r && (bus r).mem.stackBaseReg && stackDramAddr r &&
  ((dmemAddr r).extractLsb' 0 2 == 0b00#2)

/-! ## CSR access -/

def exeCsrWen (r : Regs) (p : Ports) : Bool := esValid r && (bus r).csr.csrWen && !esFlush r p

def exeCsrAddr (r : Regs) : BitVec 12 := (bus r).csr.csrWaddr

def csrWdata (r : Regs) : Word :=
  let op := (bus r).csr.csrOp
  let sel := (bus r).csr.csrImmSel
  let imm := (bus r).csr.csrImm
  if op = ⟨true, false, false⟩ && !sel then src1Base r
  else if op = ⟨false, true, false⟩ && !sel then csrData r ||| src1Base r
  else if op = ⟨false, false, true⟩ && !sel then csrData r &&& ~~~src1Base r
  else if op = ⟨true, false, false⟩ && sel then imm
  else if op = ⟨false, true, false⟩ && sel then csrData r ||| imm
  else if op = ⟨false, false, true⟩ && sel then csrData r &&& ~~~imm
  else 0#32

/-! ## Branches and jumps -/

def brEq (a b : Word) : Bool := a == b

/-- The borrow of the 33-bit subtraction `sub_res`. -/
def brLtu (a b : Word) : Bool := (a.setWidth 33 - b.setWidth 33).getLsbD 32

def brLt (a b : Word) : Bool :=
  if a.getLsbD 31 != b.getLsbD 31 then a.getLsbD 31 else brLtu a b

def brCondRaw (op : BrJmpOpcode) (a b : Word) : Bool :=
  (op.beq && brEq a b) || (op.bne && !brEq a b) ||
  (op.blt && brLt a b) || (op.bge && !brLt a b) ||
  (op.bltu && brLtu a b) || (op.bgeu && !brLtu a b)

def brTaken (r : Regs) (p : Ports) : Bool :=
  if esFlush r p then false
  else (bus r).brJmp.isJal || (bus r).brJmp.isJalr ||
    ((bus r).brJmp.brJmpOpcode.any &&
      brCondRaw (bus r).brJmp.brJmpOpcode (src1Base r) (src2Base r))

/-- `{jalr_sum[31:1], 1'b0}`. -/
def pcJalr (r : Regs) : Word :=
  (src1Base r + (bus r).brJmp.brJmpImm).extractLsb' 1 31 ++ 0#1

def brTarget (r : Regs) : Word :=
  if (bus r).brJmp.isJalr then pcJalr r else (bus r).brJmp.brJmpTarget

def brRedirect (r : Regs) (p : Ports) : Bool :=
  -- `es_valid` is not looked at
  !esFlush r p && (bus r).ctrl.isBrJmp &&
  ((brTaken r p != (bus r).brJmp.bpPredTaken) ||
   (brTaken r p && (brTarget r != (bus r).brJmp.bpPredTarget)))

def brRedirectTarget (r : Regs) (p : Ports) : Word :=
  if brTaken r p then brTarget r else (bus r).ctrl.pc + 4#32

def bpUpdateValid (r : Regs) (p : Ports) : Bool :=
  esValid r && !esFlush r p && (bus r).ctrl.isBrJmp

/-! ## Result and forwarding interface -/

def exeResult (cfg : Config) (r : Regs) (p : Ports) : Word :=
  if esFlush r p then 0#32
  else if (bus r).ctrl.isBitman then bitmanResult (bus r).bitmanOp (src1Base r) (src2Base r)
  else if (bus r).ctrl.isAlu then aluResult (bus r).aluOp (aluSrc1 cfg r p) (aluSrc2 cfg r p)
  else if (bus r).ctrl.isFpu then fpuResult
  else if (bus r).ctrl.isMem then dmemAddr r
  else if (bus r).ctrl.isMul then mulResult r p
  else if (bus r).ctrl.isCsr then csrData r
  -- the link address of a jump
  else (bus r).ctrl.pc + 4#32

def exeDestAddr (r : Regs) : BitVec 5 := (bus r).ctrl.rdAddr

def exeRegfileWen (r : Regs) (p : Ports) : Bool :=
  esValid r && (bus r).ctrl.regfileWen && !esFlush r p

def exeRegFpuWen (r : Regs) (p : Ports) : Bool :=
  esValid r && (bus r).ctrl.regFpuWen && !esFlush r p

def exeLoadPending (r : Regs) (p : Ports) : Bool :=
  esValid r && !esFlush r p && (bus r).ctrl.exeResultSel.mem &&
  ((bus r).ctrl.regfileWen || (bus r).ctrl.regFpuWen)

def exeLwLiveOk (cfg : Config) (r : Regs) (p : Ports) : Bool :=
  cfg.lwLiveBypassEnable &&
  (esToMsValid r p && p.msAllowin && !esFlush r p &&
    instLw r && (bus r).ctrl.regfileWen && ((bus r).ctrl.rdAddr != 0#5))

def exeResultPending (r : Regs) (p : Ports) : Bool :=
  -- a multiplication or a division that is not done
  esValid r && !esFlush r p && !esReadyGo r p

def esToMsBus (cfg : Config) (r : Regs) (p : Ports) : EsToMsBus :=
  { pc := (bus r).ctrl.pc
    exeResult := exeResult cfg r p
    loadInst := loadInst r
    rdAddr := (bus r).ctrl.rdAddr
    regfileWen := (bus r).ctrl.regfileWen
    regFpuWen := (bus r).ctrl.regFpuWen
    exeResultSel := (bus r).ctrl.exeResultSel
    csrWen := exeCsrWen r p
    csrAddr := exeCsrAddr r
    csrWdata := csrWdata r }

def exeExcBus (r : Regs) (p : Ports) : ExeExcBus :=
  { brTaken := brTaken r p
    brTarget := brTarget r
    exc := r.buf.main.exc }

/-- The assertion of the live load path holds in this cycle; its negation is the `$fatal`. -/
def liveLwContract (cfg : Config) (r : Regs) (p : Ports) (memLwLiveValid : Bool) : Bool :=
  let c := (bus r).ctrl
  !(cfg.lwLiveBypassEnable && esValid r && !esFlush r p &&
      (((bus r).src.src1Fwd == 0b11#2) || ((bus r).src.src2Fwd == 0b11#2))) ||
    (c.isAlu && !c.isFpu && !c.isMul && !c.isMem && !c.isCsr && !c.isBrJmp && !c.isBitman &&
      memLwLiveValid && p.msAllowin)

/-! ## Clock edge -/

/-- The payload latched with an accepted instruction. -/
def inPayload (cfg : Config) (r : Regs) (p : Ports) (q : InPorts) : Payload :=
  { dsFlush := q.dsFlush
    bus := q.dsToEsBus
    exc := q.dsExcBus
    exeResult := exeResult cfg r p
    csrWdata := csrWdata r
    memResult := p.memResult }

def next (cfg : Config) (r : Regs) (p : Ports) (q : InPorts) : Regs :=
  { buf := SkidBuffer.next r.buf (wires p q (esReadyGo r p)) (inPayload cfg r p q)
    mul := Mul.next Mul.Build.core r.mul (mulPorts r p) (divPorts r p)
    divider := Divider.next r.divider (dividerPorts r p) }

end ExeStage
end RiscvCpu
