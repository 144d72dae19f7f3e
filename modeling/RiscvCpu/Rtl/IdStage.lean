import RiscvCpu.Lib.SkidBuffer
import RiscvCpu.Rtl.Decode

/-!
# IdStage — `id_stage.sv`

The decode stage: its registered boundary to fetch with the flush marks of the two buffered
instructions, the operands with the write-back bypass, the forwarding selects, the load-use hazard
and the bus to execute.
-/

namespace RiscvCpu
namespace IdStage

/-- What travels with an instruction in `id_stage`: `fs_to_ds_bus_r` and `fs_exc_bus_r`. -/
structure Payload where
  bus : FsToDsBus
  exc : ExcBus

structure Regs where
  buf : SkidBuffer.Regs Payload
  dsFlushR : Bool
  dsFlushSkid : Bool

structure Ports where
  fsToDsValid : Bool
  fsToDsBus : FsToDsBus
  fsExcBus : ExcBus
  rs1Data : Word
  rs2Data : Word
  rs1FpuData : Word
  csrData : Word
  esAllowin : Bool
  regfileWen : Bool
  regFpuWen : Bool
  regfileWaddr : BitVec 5
  regfileWdata : Word
  exeDestAddr : BitVec 5
  exeRegfileWen : Bool
  exeRegFpuWen : Bool
  exeCsrAddr : BitVec 12
  exeCsrWen : Bool
  exeLoadPending : Bool
  exeLwLiveOk : Bool
  exeStackLwHit : Bool
  exeStorePending : Bool
  exeResultPending : Bool
  esValid : Bool
  memDestAddr : BitVec 5
  memRegfileWen : Bool
  msValid : Bool
  brTaken : Bool
  exceptionFlag : Bool

def resetPayload : Payload := ⟨⟨0#32, 0#32, false, 0#32⟩, ⟨0#7, 0#32⟩⟩

def reset : Regs :=
  { buf := SkidBuffer.reset resetPayload, dsFlushR := false, dsFlushSkid := false }

def pipeFlush (p : Ports) : Bool := p.exceptionFlag || p.brTaken

def dsFlush (r : Regs) (p : Ports) : Bool := pipeFlush p || r.dsFlushR

def dsValid (r : Regs) : Bool := r.buf.valid
def idInst (r : Regs) : Word := r.buf.main.bus.inst
def idPc (r : Regs) : Word := r.buf.main.bus.pc

open Decode

/-! ## Operands with the write-back bypass -/

def src1 (r : Regs) (p : Ports) : Word :=
  if rs1Addr (idInst r) == 0#5 then 0#32
  -- the word that write-back writes in this cycle is not in the register file yet
  else if p.regfileWen && (p.regfileWaddr == rs1Addr (idInst r)) then p.regfileWdata
  else p.rs1Data

def src2 (r : Regs) (p : Ports) : Word :=
  if rs2Addr (idInst r) == 0#5 then 0#32
  else if p.regfileWen && (p.regfileWaddr == rs2Addr (idInst r)) then p.regfileWdata
  else p.rs2Data

def src1Fpu (r : Regs) (p : Ports) : Word :=
  if rs1Addr (idInst r) == 0#5 then 0#32
  else if p.regFpuWen && (p.regfileWaddr == rs1Addr (idInst r)) then p.regfileWdata
  else p.rs1FpuData

/-! ## Stack value buffer query -/

def stackQueryAddr (r : Regs) (p : Ports) : Word := src1 r p + immIExt (idInst r)

def stackBaseReady (r : Regs) (p : Ports) : Bool :=
  -- the base must not be on its way in execute or in the memory stage
  !((p.exeRegfileWen && p.esValid && (p.exeDestAddr == rs1Addr (idInst r))) ||
    (p.memRegfileWen && p.msValid && (p.memDestAddr == rs1Addr (idInst r))))

def stackQueryValid (r : Regs) (p : Ports) : Bool :=
  dsValid r && !dsFlush r p && instLw (idInst r) &&
  stackBaseReg (idInst r) && stackBaseReady r p &&
  !p.exeStorePending &&
  -- an aligned word of the 256 KiB window
  ((stackQueryAddr r p).extractLsb' 18 14 == 0b10000000000100#14) &&
  ((stackQueryAddr r p).extractLsb' 0 2 == 0b00#2)

/-- `stack_load_hit`, with the buffer's answer `stack_query_hit`. -/
def stackLoadHit (r : Regs) (p : Ports) (stackQueryHit : Bool) : Bool :=
  stackQueryValid r p && stackQueryHit

/-! ## Packets -/

def memPacket (r : Regs) (p : Ports) (stackQueryHit : Bool) : MemPacket :=
  { memImm := memImm (idInst r)
    memOp := memOp (idInst r)
    isStore := isStoreInst (idInst r)
    stackBaseReg := stackBaseReg (idInst r)
    stackLoadHit := stackLoadHit r p stackQueryHit }

def csrRdataFwd (r : Regs) (p : Ports) : Bool :=
  -- only the addresses are compared
  p.exeCsrWen && (p.exeCsrAddr == csrAddr (idInst r))

def csrPacket (r : Regs) (p : Ports) : CsrPacket :=
  { csrRdata := p.csrData
    csrImm := csrImm (idInst r)
    csrWaddr := csrAddr (idInst r)
    csrOp := csrOp (idInst r)
    csrImmSel := csrImmSel (idInst r)
    csrRdataFwd := csrRdataFwd r p
    csrWen := csrWen (idInst r) }

def brJmpPacket (r : Regs) : BrJmpPacket :=
  { bpPredTaken := r.buf.main.bus.bpPredTaken
    bpPredTarget := r.buf.main.bus.bpPredTarget
    brJmpTarget := idPc r + brJmpImm (idInst r)
    brJmpImm := brJmpImm (idInst r)
    brJmpOpcode := brJmpOpcode (idInst r)
    isJal := isJal (idInst r)
    isJalr := isJalr (idInst r) }

/-! ## Forwarding selects -/

def ordinaryIntAluConsumer (r : Regs) (p : Ports) : Bool :=
  dsValid r && !dsFlush r p &&
  isAluInst (idInst r) && (isOpReg (idInst r) || isOpImm (idInst r)) &&
  !isFpuInst (idInst r) && !isMulInst (idInst r) && !isMemInst (idInst r) &&
  !isCsrInst (idInst r) && !isBrJmpInst (idInst r) && !isBitmanInst (idInst r)

/-- The instruction in execute writes the integer register `rs`, `rs` not being `x0`. -/
def exeWrites (p : Ports) (rs : BitVec 5) : Bool :=
  (rs != 0#5) && (rs == p.exeDestAddr) && p.exeRegfileWen

def liveLwRs1 (cfg : Config) (r : Regs) (p : Ports) : Bool :=
  cfg.lwLiveBypassEnable &&
  (p.exeLwLiveOk && ordinaryIntAluConsumer r p &&
    (isOpReg (idInst r) || isOpImm (idInst r)) && exeWrites p (rs1Addr (idInst r)))

def liveLwRs2 (cfg : Config) (r : Regs) (p : Ports) : Bool :=
  cfg.lwLiveBypassEnable &&
  (p.exeLwLiveOk && ordinaryIntAluConsumer r p &&
    isOpReg (idInst r) && exeWrites p (rs2Addr (idInst r)))

def stackLwRs1 (r : Regs) (p : Ports) : Bool :=
  p.exeStackLwHit && ordinaryIntAluConsumer r p && exeWrites p (rs1Addr (idInst r))

def stackLwRs2 (r : Regs) (p : Ports) : Bool :=
  p.exeStackLwHit && ordinaryIntAluConsumer r p &&
  isOpReg (idInst r) && exeWrites p (rs2Addr (idInst r))

/-- The select for a source register `rs` that is not replaced by an immediate or a constant. -/
def srcFwd (p : Ports) (liveLw : Bool) (rs : BitVec 5) : BitVec 2 :=
  if rs != 0#5 then
    -- the youngest producer first: execute, then the memory stage
    if liveLw then 0b11#2
    else if p.exeRegfileWen && (p.exeDestAddr == rs) && p.esValid then 0b01#2
    else if p.memRegfileWen && (p.memDestAddr == rs) && p.msValid then 0b10#2
    else 0b00#2
  else 0b00#2

def src1Fwd (cfg : Config) (r : Regs) (p : Ports) : BitVec 2 :=
  if instLui (idInst r) || instAuipc (idInst r) then 0b00#2
  else srcFwd p (liveLwRs1 cfg r p) (rs1Addr (idInst r))

def src2Fwd (cfg : Config) (r : Regs) (p : Ports) : BitVec 2 :=
  -- an immediate takes the place of the register
  if aluSrc2ImmSel (idInst r) || instBitmanImmInst (idInst r) ||
      (instBitmanAny (idInst r) && !instBitmanRs2Inst (idInst r)) then 0b00#2
  else srcFwd p (liveLwRs2 cfg r p) (rs2Addr (idInst r))

def regSrc1 (r : Regs) (p : Ports) : Word :=
  if instFlw (idInst r) || instFsw (idInst r) then src1Fpu r p
  else if instLui (idInst r) then 0#32
  else if instAuipc (idInst r) then idPc r
  else src1 r p

def regSrc2 (r : Regs) (p : Ports) : Word :=
  if instBitmanImmInst (idInst r) then (rs2Addr (idInst r)).setWidth 32
  else if aluSrc2ImmSel (idInst r) then
    gate (imiValid (idInst r)) (immIExt (idInst r)) |||
      gate (imuValid (idInst r)) (immUExt (idInst r))
  else src2 r p

def srcPacket (cfg : Config) (r : Regs) (p : Ports) : SrcPacket :=
  { regSrc1 := regSrc1 r p
    regSrc2 := regSrc2 r p
    src1Fwd := src1Fwd cfg r p
    src2Fwd := src2Fwd cfg r p
    stackSrc1Fwd := stackLwRs1 r p
    stackSrc2Fwd := stackLwRs2 r p }

def dsToEsBus (cfg : Config) (r : Regs) (p : Ports) (stackQueryHit : Bool) : DsToEsBus :=
  { bitmanOp := bitmanOp (idInst r)
    aluOp := aluOp (idInst r)
    mul := mulPacket (idInst r)
    mem := memPacket r p stackQueryHit
    csr := csrPacket r p
    brJmp := brJmpPacket r
    ctrl := ctrlPacket (idInst r) (idPc r)
    src := srcPacket cfg r p }

/-! ## Exceptions raised in decode -/

def dsExcBus (r : Regs) (p : Ports) : ExcBus :=
  if dsFlush r p then ⟨0#7, 0#32⟩
  else if instEcall (idInst r) && dsValid r then ⟨Exc.ECALL, 0#32⟩
  else if instEbreak (idInst r) && dsValid r then ⟨Exc.EBREAK, 0#32⟩
  else if instMret (idInst r) && dsValid r then ⟨Exc.MRET, 0#32⟩
  else r.buf.main.exc

/-! ## Load-use hazard -/

def exeForwardPending (p : Ports) : Bool := p.exeLoadPending || p.exeResultPending

/-- An operand read from `rs` waits for the instruction in execute. -/
def exeRsHazard (p : Ports) (need : Bool) (rs : BitVec 5) : Bool :=
  need && (rs != 0#5) && (rs == p.exeDestAddr) && p.esValid && p.exeRegfileWen

/-- `fpu_srcN_fwd == 2'b01`. -/
def exeFrsHazard (p : Ports) (frs : BitVec 5) : Bool :=
  (frs != 0#5) && (p.exeRegFpuWen && (p.exeDestAddr == frs))

def exeCsrHazard (r : Regs) (p : Ports) : Bool := csrRdataFwd r p && p.exeCsrWen

def exeLoadUseHazard (cfg : Config) (r : Regs) (p : Ports) : Bool :=
  exeForwardPending p &&
  ((exeRsHazard p (needRs1 (idInst r)) (rs1Addr (idInst r)) &&
      !liveLwRs1 cfg r p && !stackLwRs1 r p) ||
   (exeRsHazard p (needRs2 (idInst r)) (rs2Addr (idInst r)) &&
      !liveLwRs2 cfg r p && !stackLwRs2 r p) ||
   exeFrsHazard p (rs1Addr (idInst r)) || exeFrsHazard p (rs2Addr (idInst r)) ||
   exeFrsHazard p (rs3FpuAddr (idInst r)) || exeCsrHazard r p)

def loadUseHazard (cfg : Config) (r : Regs) (p : Ports) : Bool :=
  exeLoadUseHazard cfg r p && dsValid r

/-! ## Handshake -/

def dsReadyGo (cfg : Config) (r : Regs) (p : Ports) : Bool := !loadUseHazard cfg r p

/-- The wires of the boundary to fetch, for a stage that may stall for its own reason. -/
def wires (p : Ports) (readyGo : Bool) : SkidBuffer.Wires :=
  { upValid := p.fsToDsValid, readyGo := readyGo, downAllowin := p.esAllowin, drop := false }

def dsToEsValid (cfg : Config) (r : Regs) (p : Ports) : Bool :=
  SkidBuffer.toValid r.buf (wires p (dsReadyGo cfg r p))

def dsAllowin (r : Regs) : Bool := r.buf.allowin

/-- The clock edge of the boundary registers and of the two flush marks. -/
def handshakeNext (r : Regs) (p : Ports) (readyGo : Bool) : Regs :=
  let w := wires p readyGo
  let core := SkidBuffer.coreAllowin r.buf w
  let fire := SkidBuffer.inFire r.buf w
  { buf := SkidBuffer.next r.buf w ⟨p.fsToDsBus, p.fsExcBus⟩
    dsFlushR :=
      if core then
        -- the skid entry, or else the beat of this cycle, becomes the instruction
        if r.buf.skidValid then r.dsFlushSkid || pipeFlush p
        else if fire then pipeFlush p
        else false
      -- the beat of this cycle goes to the skid entry
      else if fire && !r.buf.skidValid then
        if pipeFlush p then true else r.dsFlushR
      -- a flush marks an instruction that stands still
      else if pipeFlush p then r.dsFlushR || r.buf.valid
      else r.dsFlushR
    dsFlushSkid :=
      if core then r.dsFlushSkid
      else if fire && !r.buf.skidValid then pipeFlush p
      else if pipeFlush p then r.dsFlushSkid || r.buf.skidValid
      else r.dsFlushSkid }

def next (cfg : Config) (r : Regs) (p : Ports) : Regs :=
  handshakeNext r p (dsReadyGo cfg r p)

end IdStage
end RiscvCpu
