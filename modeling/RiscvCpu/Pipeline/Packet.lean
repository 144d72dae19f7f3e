import RiscvCpu.Rtl.CpuTop

/-!
# Packet — what the instruction packets are made of

Every packet that `exe_stage` holds was decoded from an instruction word.  `Decoded` says so for the
fields that depend on the word alone, and the lemmas below are the facts about instruction classes
that the control of the pipeline rests on.
-/

namespace RiscvCpu

namespace Decode

/-! ## Instruction classes -/

/-- The word has one of the F-extension opcodes. -/
def usesF (i : Word) : Bool :=
  isFload i || isFstore i || isFmadd i || isFmsub i || isFnmsub i || isFnmadd i || isFpu i

/-- The exception code that `id_stage` attaches to an instruction. -/
def sysCode (i : Word) : BitVec 7 :=
  if instEcall i then Exc.ECALL
  else if instEbreak i then Exc.EBREAK
  else if instMret i then Exc.MRET
  else 0#7

/-- The load/store vector that `exe_stage` hands to `mem_stage`. -/
def loadInstOf (i : Word) : LoadInst :=
  { b := (memOp i).b
    h := (memOp i).h
    w := (memOp i).w
    bu := (memOp i).bu && !isStoreInst i
    hu := (memOp i).hu && !isStoreInst i
    store := isStoreInst i }

variable {i : Word}

theorem isFpuInst_eq_false (h : usesF i = false) : isFpuInst i = false := by
  simp only [usesF, Bool.or_eq_false_iff] at h
  simp [isFpuInst, isFpuMulticycle, instFaddS, instFsubS, instFmulS, instFminS, instFmaxS,
    instFdivS, instFsqrtS, instFmaddS, instFmsubS, instFnmaddS, instFnmsubS, instFcvtWS,
    instFcvtWuS, instFcvtSW, instFcvtSWu, instFsgnjS, instFsgnjnS, instFsgnjxS, instFmvWX,
    instFmvXW, instFltS, instFleS, instFeqS, instFclassS, h]

theorem instFlw_eq_false (h : usesF i = false) : instFlw i = false := by
  simp only [usesF, Bool.or_eq_false_iff] at h
  simp [instFlw, h]

theorem instFsw_eq_false (h : usesF i = false) : instFsw i = false := by
  simp only [usesF, Bool.or_eq_false_iff] at h
  simp [instFsw, h]

/-! ### Classes outside their opcodes -/

theorem isAluInst_eq_false (hreg : isOpReg i = false) (himm : isOpImm i = false)
    (hlui : isLui i = false) (hauipc : isAuipc i = false) : isAluInst i = false := by
  simp [isAluInst, aluOp, instAdd, instAddi, instSub, instAnd, instAndi, instOr, instOri, instXor,
    instXori, instSll, instSlli, instSrl, instSrli, instSra, instSrai, instSlt, instSlti,
    instSltu, instSltiu, instLui, instAuipc, hreg, himm, hlui, hauipc]

theorem isBitmanInst_eq_false (hreg : isOpReg i = false) (himm : isOpImm i = false) :
    isBitmanInst i = false := by
  have hreg' : isBitman i = false := hreg
  have himm' : isBitmanImm i = false := himm
  simp [isBitmanInst, instBitmanAny, instSh1add, instSh2add, instSh3add, instAndn, instOrn,
    instXnor, instMin, instMax, instMinu, instMaxu, instSextb, instSexth, instZexth, instOrcb,
    instRev8, instBrev8, instPack, instPackh, instZip, instUnzip, instBclr, instBclri, instBext,
    instBexti, instBinv, instBinvi, instBset, instCpop, hreg', himm']

theorem isMulInst_eq_false (hreg : isOpReg i = false) : isMulInst i = false := by
  simp [isMulInst, instMul, instMulh, instMulhsu, instMulhu, instDiv, instDivu, instRem, instRemu,
    hreg]

theorem isCsrInst_eq_false (hsys : isSystem i = false) : isCsrInst i = false := by
  simp [isCsrInst, instCsrrw, instCsrrs, instCsrrc, instCsrrwi, instCsrrsi, instCsrrci, hsys]

/-! ### Opcodes of the classes -/

theorem opcode_of_isMulInst (h : isMulInst i = true) : opcode i = 0b0110011#7 := by
  simp only [isMulInst, instMul, instMulh, instMulhsu, instMulhu, instDiv, instDivu, instRem,
    instRemu, isOpReg, Bool.or_eq_true, Bool.and_eq_true, beq_iff_eq] at h
  tauto

theorem opcode_of_sysCode (h : sysCode i ≠ 0#7) : opcode i = 0b1110011#7 := by
  by_contra hop
  apply h
  have hsys : isSystem i = false := by simpa [isSystem] using hop
  simp [sysCode, instEcall, instEbreak, instMret, hsys]

theorem opcode_of_isStoreInst (hf : usesF i = false) (h : isStoreInst i = true) :
    opcode i = 0b0100011#7 := by
  simpa [isStoreInst, instFlw_eq_false hf, instFsw_eq_false hf, isStore] using h

/-- A CSR instruction carries no exception code. -/
theorem sysCode_of_csrWen (h : csrWen i = true) : sysCode i = 0#7 := by
  have hf3 : f3_000 i = false := by
    cases hz : f3_000 i with
    | false => rfl
    | true =>
        have hz' : funct3 i = 0b000#3 := by simpa [f3_000] using hz
        simp [csrWen, instCsrrw, instCsrrwi, instCsrrs, instCsrrc, instCsrrsi, instCsrrci, f3_001,
          f3_010, f3_011, f3_101, f3_110, f3_111, hz'] at h
  simp [sysCode, instEcall, instEbreak, instMret, hf3]

/-- A memory instruction is not a jump. -/
theorem isBrJmpInst_of_isMemInst (h : isMemInst i = true) : isBrJmpInst i = false := by
  simp only [isMemInst, isLoad, isStore, instFlw, instFsw, isFload, isFstore, Bool.or_eq_true,
    Bool.and_eq_true, beq_iff_eq] at h
  rcases h with ((hop | hop) | ⟨hop, -⟩) | ⟨hop, -⟩ <;>
    simp [isBrJmpInst, isBranch, isJal, isJalr, hop]

/-- Outside the F extension a store writes no register. -/
theorem wen_of_isStoreInst (hf : usesF i = false) (h : isStoreInst i = true) :
    ctrlRegfileWen i = false ∧ ctrlRegFpuWen i = false := by
  have hop := opcode_of_isStoreInst hf h
  have hreg : isOpReg i = false := by simp [isOpReg, hop]
  have himm : isOpImm i = false := by simp [isOpImm, hop]
  have hsys : isSystem i = false := by simp [isSystem, hop]
  simp [ctrlRegfileWen, ctrlRegFpuWen, isFpuInst_eq_false hf, instFlw_eq_false hf,
    isAluInst_eq_false hreg himm (by simp [isLui, hop]) (by simp [isAuipc, hop]),
    isMulInst_eq_false hreg, isBitmanInst_eq_false hreg himm,
    isCsrInst_eq_false hsys, isLoad, isJal, isJalr, hop]

end Decode

open Decode

/-! ## Packets decoded from a word -/

/-- The fields of a packet that depend on the instruction word and its pc are those of `x`. -/
structure Decoded (x : Word) (b : DsToEsBus) : Prop where
  bitmanOp : b.bitmanOp = bitmanOp x
  aluOp : b.aluOp = aluOp x
  mul : b.mul = mulPacket x
  memImm : b.mem.memImm = memImm x
  memOp : b.mem.memOp = memOp x
  isStore : b.mem.isStore = isStoreInst x
  stackBaseReg : b.mem.stackBaseReg = stackBaseReg x
  csrImm : b.csr.csrImm = csrImm x
  csrWaddr : b.csr.csrWaddr = csrAddr x
  csrOp : b.csr.csrOp = csrOp x
  csrImmSel : b.csr.csrImmSel = csrImmSel x
  csrWen : b.csr.csrWen = csrWen x
  brJmpTarget : b.brJmp.brJmpTarget = b.ctrl.pc + brJmpImm x
  brJmpImm : b.brJmp.brJmpImm = brJmpImm x
  brJmpOpcode : b.brJmp.brJmpOpcode = brJmpOpcode x
  isJal : b.brJmp.isJal = isJal x
  isJalr : b.brJmp.isJalr = isJalr x
  ctrl : b.ctrl = ctrlPacket x b.ctrl.pc

/-- The packet of decode is decoded from the instruction it holds. -/
theorem decoded_dsToEsBus (cfg : Config) (r : IdStage.Regs) (p : IdStage.Ports) (hit : Bool) :
    Decoded (IdStage.idInst r) (IdStage.dsToEsBus cfg r p hit) := by
  constructor <;> rfl

/-- The packet in the registers after reset is that of the word 0. -/
theorem decoded_resetBus : Decoded 0#32 ExeStage.resetBus := by
  constructor <;> rfl

/-- What is latched in execute was decoded from the word `x`; a squashed instruction carries no
exception code. -/
structure PayloadOf (x : Word) (l : ExeStage.Payload) : Prop where
  decoded : Decoded x l.bus
  excCode : l.exc.excCode = if l.dsFlush then 0#7 else sysCode x
  excMtval : l.exc.excMtval = 0#32

/-- What is latched in the memory stage comes from the word `x`. -/
structure MemPayloadOf (x : Word) (l : MemStage.Payload) : Prop where
  loadInst : l.bus.loadInst = loadInstOf x
  rdAddr : l.bus.rdAddr = rdAddr x
  regfileWen : l.bus.regfileWen = ctrlRegfileWen x
  regFpuWen : l.bus.regFpuWen = ctrlRegFpuWen x
  exeResultSel : l.bus.exeResultSel = exeResultSel x
  csrWen : l.bus.csrWen = (csrWen x && !l.esFlush)
  csrAddr : l.bus.csrAddr = csrAddr x
  excCode : l.exc.exc.excCode = sysCode x ∨ (l.esFlush = true ∧ l.exc.exc.excCode = 0#7)
  excMtval : l.exc.exc.excMtval = 0#32
  brTaken : l.exc.brTaken = true → isBrJmpInst x = true

theorem MemPayloadOf.brTaken_eq_false {x : Word} {l : MemStage.Payload} (h : MemPayloadOf x l)
    (hno : isBrJmpInst x = false) : l.exc.brTaken = false := by
  cases hb : l.exc.brTaken with
  | false => rfl
  | true =>
      have hjmp := h.brTaken hb
      rw [hno] at hjmp
      cases hjmp

theorem payloadOf_reset : PayloadOf 0#32 ExeStage.resetPayload :=
  { decoded := decoded_resetBus, excCode := rfl, excMtval := rfl }

theorem memPayloadOf_reset : MemPayloadOf 0#32 MemStage.resetPayload := by
  constructor <;> first | rfl | exact Or.inl rfl | (intro h; cases h)

theorem isBrJmpInst_of_brTaken {x : Word} {r : ExeStage.Regs} {p : ExeStage.Ports}
    (hx : Decoded x (ExeStage.bus r)) (h : ExeStage.brTaken r p = true) :
    isBrJmpInst x = true := by
  by_cases hflush : ExeStage.esFlush r p = true
  · simp [ExeStage.brTaken, hflush] at h
  · simp only [ExeStage.brTaken, hflush, hx.isJal, hx.isJalr, hx.brJmpOpcode, brJmpOpcode,
      BrJmpOpcode.any, instBeq, instBne, instBlt, instBge, instBltu, instBgeu] at h
    simp only [isBrJmpInst]
    cases hb : isBranch x <;> simp_all

/-- The packet that leaves execute comes from the word of the one that entered it. -/
theorem memPayloadOf_of_payloadOf {cfg : Config} {x : Word} {r : ExeStage.Regs}
    {p : ExeStage.Ports} (hv : ExeStage.esValid r = true) (hx : PayloadOf x r.buf.main) :
    MemPayloadOf x ⟨ExeStage.esToMsBus cfg r p, ExeStage.exeExcBus r p, ExeStage.esFlush r p⟩ := by
  have hd : Decoded x (ExeStage.bus r) := hx.decoded
  have hctrl : (ExeStage.bus r).ctrl = ctrlPacket x (ExeStage.bus r).ctrl.pc := hd.ctrl
  refine
    { loadInst := ?_, rdAddr := ?_, regfileWen := ?_, regFpuWen := ?_, exeResultSel := ?_
      csrWen := ?_, csrAddr := hd.csrWaddr, excCode := ?_, excMtval := hx.excMtval
      brTaken := isBrJmpInst_of_brTaken hd }
  · simp only [ExeStage.esToMsBus, ExeStage.loadInst, ExeStage.instLb, ExeStage.instLh,
      ExeStage.instLw, ExeStage.instLbu, ExeStage.instLhu, ExeStage.instSb, ExeStage.instSh,
      ExeStage.instSw, hd.memOp, hd.isStore, loadInstOf]
    cases isStoreInst x <;> simp
  · simp only [ExeStage.esToMsBus]
    rw [hctrl]; rfl
  · simp only [ExeStage.esToMsBus]
    rw [hctrl]; rfl
  · simp only [ExeStage.esToMsBus]
    rw [hctrl]; rfl
  · simp only [ExeStage.esToMsBus]
    rw [hctrl]; rfl
  · simp [ExeStage.esToMsBus, ExeStage.exeCsrWen, hv, hd.csrWen]
  · simp only [ExeStage.exeExcBus, hx.excCode]
    cases hflush : r.buf.main.dsFlush with
    | false => simp
    | true => simp [ExeStage.esFlush, hflush]

end RiscvCpu
