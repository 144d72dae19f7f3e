import RiscvCpu.Bypass.LiveLoad
import RiscvCpu.Refine.Agree
import RiscvCpu.Refine.MulDiv
import RiscvCpu.Refine.Stream

/-!
# Execute — the live instruction in execute does what its word says

A payload carries the registers `ρ` when the operands that execute will select for it are those of
its word at its pc.  A live instruction that carries `ρ` computes the value, the next pc and the data
request of the datapath on `ρ`.
-/

namespace RiscvCpu

open Decode

/-! ## The operands that execute selects -/

namespace ExeStage

/-- The word on the data bus for a live load, otherwise the snapshot or the operand of decode. -/
def argument (cfg : Config) (fwd : BitVec 2) (exeResultReg memResultReg regSrc rdata : Word) :
    Word :=
  if cfg.lwLiveBypassEnable && (fwd == 0b11#2) then rdata
  else srcBase fwd exeResultReg memResultReg regSrc

def Payload.argument1 (cfg : Config) (l : Payload) (rdata : Word) : Word :=
  argument cfg l.bus.src.src1Fwd l.exeResult l.memResult l.bus.src.regSrc1 rdata

def Payload.argument2 (cfg : Config) (l : Payload) (rdata : Word) : Word :=
  argument cfg l.bus.src.src2Fwd l.exeResult l.memResult l.bus.src.regSrc2 rdata

theorem argument_of_ne {cfg : Config} {fwd : BitVec 2} {e m r rdata : Word}
    (h : fwd ≠ 0b11#2) : argument cfg fwd e m r rdata = srcBase fwd e m r := by
  simp [argument, h]

theorem argument_unforwarded (cfg : Config) (e m r rdata : Word) :
    argument cfg 0b00#2 e m r rdata = r := by
  simp [argument, srcBase]

/-- The request wires of the valid and unflushed word `x`. -/
structure Requested (x : Word) (r : Regs) (p : Ports) : Prop where
  en : dmemEn r p = (memOp x).any
  addr : dmemAddr r = src1Base r + memImm x
  wen : dmemWen r p = Datapath.wen x (dmemAddr r)
  wdata : dmemWdata r = Datapath.wdata x (src2Base r)

theorem requested_of_decoded {x : Word} {r : Regs} {p : Ports} (hx : Decoded x (bus r))
    (hv : esValid r = true) (hflush : esFlush r p = false) : Requested x r p := by
  refine { en := ?_, addr := ?_, wen := ?_, wdata := ?_ }
  · simp [dmemEn, hv, hflush, hx.memOp]
  · rw [dmemAddr, hx.memImm]
  · simp only [dmemWen, hflush, instSb, instSh, instSw, hx.memOp, hx.isStore]
    rfl
  · simp only [dmemWdata, instSb, instSh, hx.memOp, hx.isStore]
    rfl

end ExeStage

/-- The operands of the payload `l` are read from the registers `ρ`, with `rdata` on the data bus. -/
structure Carries (cfg : Config) (imem : Word → Word) (ρ : BitVec 5 → Word) (rdata : Word)
    (l : ExeStage.Payload) : Prop where
  noStack1 : l.bus.src.stackSrc1Fwd = false
  noStack2 : l.bus.src.stackSrc2Fwd = false
  live : Cpu.TakesLiveLoad l.bus → ordinaryIntAlu (imem l.bus.ctrl.pc) = true
  operands : Datapath.Operands (imem l.bus.ctrl.pc) l.bus.ctrl.pc ρ (l.argument1 cfg rdata)
    (l.argument2 cfg rdata)

/-- A payload that takes nothing live does not depend on the data bus. -/
theorem Carries.of_not_live {cfg : Config} {imem : Word → Word} {ρ : BitVec 5 → Word}
    {rdata : Word} {l : ExeStage.Payload} (h : Carries cfg imem ρ rdata l)
    (hno : ¬ Cpu.TakesLiveLoad l.bus) (rdata' : Word) : Carries cfg imem ρ rdata' l := by
  have h1 : l.bus.src.src1Fwd ≠ 0b11#2 := fun hfwd => hno (Or.inl hfwd)
  have h2 : l.bus.src.src2Fwd ≠ 0b11#2 := fun hfwd => hno (Or.inr hfwd)
  refine { noStack1 := h.noStack1, noStack2 := h.noStack2, live := h.live, operands := ?_ }
  have hop := h.operands
  rw [ExeStage.Payload.argument1, ExeStage.Payload.argument2, ExeStage.argument_of_ne h1,
    ExeStage.argument_of_ne h2] at hop ⊢
  exact hop

namespace Cpu

/-! ## What can be seen of the core in one cycle -/

section Observe

variable (cfg : Config) (s : Cpu) (i : CpuIn)

/-- The register write made by write-back. -/
def wbWrite : Option Isa.Write :=
  if WbStage.regfileWen s.ws && (WbStage.regfileAddr s.ws != 0#5) then
    some ⟨WbStage.wbPc s.ws, WbStage.regfileAddr s.ws, WbStage.regfileWdata s.ws⟩
  else none

/-- The data-memory request, with the strobed lanes of its write data. -/
def request : Option Isa.Request :=
  if dmemEn cfg s i then
    some ⟨dmemAddr s, dmemWen cfg s i, strobeWord (dmemWen cfg s i) 0#32 (dmemWdata s)⟩
  else none

end Observe

/-! ## A live instruction in execute -/

variable {cfg : Config} {imem : Word → Word} {s : Cpu} {i : CpuIn} {ρ : BitVec 5 → Word}

/-- The word in execute. -/
def esWord (imem : Word → Word) (s : Cpu) : Word := imem s.es.buf.main.bus.ctrl.pc

/-- Execute holds a live instruction of the instruction set, which carries `ρ`. -/
structure Executing (cfg : Config) (imem : Word → Word) (s : Cpu) (i : CpuIn)
    (ρ : BitVec 5 → Word) : Prop where
  live : liveEs s = true
  quiet : exceptionFlag s i = false
  word : PayloadOf (esWord imem s) s.es.buf.main
  isa : Datapath.isaOpcode (opcode (esWord imem s)) = true
  carries : Carries cfg imem ρ i.dmemRdata s.es.buf.main

/-- The operands in use. -/
def esArg1 (cfg : Config) (s : Cpu) (i : CpuIn) : Word := s.es.buf.main.argument1 cfg i.dmemRdata
def esArg2 (cfg : Config) (s : Cpu) (i : CpuIn) : Word := s.es.buf.main.argument2 cfg i.dmemRdata

namespace Executing

theorem esFlush (h : Executing cfg imem s i ρ) :
    ExeStage.esFlush s.es (exePorts cfg s i) = false :=
  esFlush_of_live h.live h.quiet

theorem valid (h : Executing cfg imem s i ρ) : s.es.buf.valid = true :=
  (liveEs_parts h.live).1

theorem decoded (h : Executing cfg imem s i ρ) : Decoded (esWord imem s) (ExeStage.bus s.es) :=
  h.word.decoded

theorem ctrl (h : Executing cfg imem s i ρ) :
    (ExeStage.bus s.es).ctrl = ctrlPacket (esWord imem s) (ExeStage.bus s.es).ctrl.pc :=
  h.decoded.ctrl

/-- `alu_src1` and `alu_src2`. -/
theorem aluSrc_eq (h : Executing cfg imem s i ρ) :
    ExeStage.aluSrc1 cfg s.es (exePorts cfg s i) = esArg1 cfg s i ∧
      ExeStage.aluSrc2 cfg s.es (exePorts cfg s i) = esArg2 cfg s i := by
  -- the stack buffer is not in use, so the live word is the only one of this cycle
  have h1 : (ExeStage.bus s.es).src.stackSrc1Fwd = false := h.carries.noStack1
  have h2 : (ExeStage.bus s.es).src.stackSrc2Fwd = false := h.carries.noStack2
  have hdata : cfg.lwLiveBypassEnable = true → (exePorts cfg s i).memLwLiveData = i.dmemRdata := by
    intro hcfg
    simp [exePorts, MemStage.memLwLiveData, hcfg]
  cases hcfg : cfg.lwLiveBypassEnable with
  | true =>
      have hd := hdata hcfg
      simp only [ExeStage.aluSrc1, ExeStage.aluSrc2, ExeStage.aluSrc, h1, h2, hcfg, hd]
      simp only [esArg1, esArg2, ExeStage.Payload.argument1, ExeStage.Payload.argument2,
        ExeStage.argument, hcfg]
      exact ⟨rfl, rfl⟩
  | false =>
      simp only [ExeStage.aluSrc1, ExeStage.aluSrc2, ExeStage.aluSrc, h1, h2, hcfg]
      simp only [esArg1, esArg2, ExeStage.Payload.argument1, ExeStage.Payload.argument2,
        ExeStage.argument, hcfg]
      exact ⟨rfl, rfl⟩

/-- Outside the ordinary ALU class `srcN_base` is the operand. -/
theorem srcBase_eq (h : Executing cfg imem s i ρ)
    (hord : ordinaryIntAlu (esWord imem s) = false) :
    ExeStage.src1Base s.es = esArg1 cfg s i ∧ ExeStage.src2Base s.es = esArg2 cfg s i := by
  have hno : ¬ TakesLiveLoad s.es.buf.main.bus := by
    intro htakes
    have hlive := h.carries.live htakes
    rw [esWord] at hord
    rw [hord] at hlive
    cases hlive
  have h1 : s.es.buf.main.bus.src.src1Fwd ≠ 0b11#2 := fun hfwd => hno (Or.inl hfwd)
  have h2 : s.es.buf.main.bus.src.src2Fwd ≠ 0b11#2 := fun hfwd => hno (Or.inr hfwd)
  rw [esArg1, esArg2, ExeStage.Payload.argument1, ExeStage.Payload.argument2,
    ExeStage.argument_of_ne h1, ExeStage.argument_of_ne h2]
  exact ⟨rfl, rfl⟩

end Executing

/-- No ordinary ALU instruction is of one of the other classes. -/
theorem not_ordinaryIntAlu {x : Word}
    (h : isMemInst x = true ∨ isMulInst x = true ∨ isBrJmpInst x = true ∨
      isBitmanInst x = true) : ordinaryIntAlu x = false := by
  rcases h with h | h | h | h <;> simp [ordinaryIntAlu, h]

theorem isMemInst_of_memOp {x : Word} (h : (memOp x).any = true) : isMemInst x = true := by
  simp only [MemOp.any, memOp, Decode.instLb, Decode.instSb, Decode.instLh, Decode.instSh,
    Decode.instLw, Decode.instSw, Decode.instLbu, Decode.instLhu, Bool.or_eq_true,
    Bool.and_eq_true] at h
  simp only [isMemInst, Bool.or_eq_true]
  tauto

namespace Executing

/-! ### Its result -/

theorem exeResult_eq (h : Executing cfg imem s i ρ)
    (hmul : isMulInst (esWord imem s) = true →
      ExeStage.mulResult s.es (exePorts cfg s i) =
        (mulPacket (esWord imem s)).value (esArg1 cfg s i) (esArg2 cfg s i)) :
    ExeStage.exeResult cfg s.es (exePorts cfg s i) =
      Datapath.value (esWord imem s) s.es.buf.main.bus.ctrl.pc (esArg1 cfg s i)
        (esArg2 cfg s i) := by
  have hx := h.decoded
  rcases Datapath.usesF_of_isaOpcode h.isa with ⟨hf, hsys⟩
  rw [ExeStage.exeResult, h.esFlush, h.ctrl, hx.bitmanOp, hx.aluOp, Datapath.value]
  simp only [ctrlPacket, isFpuInst_eq_false hf, isCsrInst_eq_false hsys, Bool.false_eq_true,
    if_false]
  -- the classes in the order of the result select; only the ALU may use the live word
  cases hbit : isBitmanInst (esWord imem s) with
  | true =>
      rcases h.srcBase_eq (not_ordinaryIntAlu (by simp [hbit])) with ⟨h1, h2⟩
      simp only [if_true, h1, h2]
  | false =>
      cases halu : isAluInst (esWord imem s) with
      | true =>
          rcases h.aluSrc_eq with ⟨h1, h2⟩
          simp only [Bool.false_eq_true, if_false, if_true, h1, h2]
      | false =>
          cases hmem : isMemInst (esWord imem s) with
          | true =>
              rcases h.srcBase_eq (not_ordinaryIntAlu (by simp [hmem])) with ⟨h1, -⟩
              simp only [Bool.false_eq_true, if_false, if_true, ExeStage.dmemAddr, h1, hx.memImm]
          | false =>
              cases hm : isMulInst (esWord imem s) with
              | true => simpa only [Bool.false_eq_true, if_false, if_true] using hmul hm
              | false => simp only [Bool.false_eq_true, if_false, ExeStage.bus]

/-! ### Its next pc -/

theorem brTaken_eq (h : Executing cfg imem s i ρ) (hbr : isBrJmpInst (esWord imem s) = true) :
    ExeStage.brTaken s.es (exePorts cfg s i) =
      Datapath.taken (esWord imem s) (esArg1 cfg s i) (esArg2 cfg s i) := by
  have hx := h.decoded
  rcases h.srcBase_eq (not_ordinaryIntAlu (by simp [hbr])) with ⟨h1, h2⟩
  rw [ExeStage.brTaken, h.esFlush, hx.isJal, hx.isJalr, hx.brJmpOpcode, h1, h2]
  rfl

theorem brTarget_eq (h : Executing cfg imem s i ρ) (hbr : isBrJmpInst (esWord imem s) = true) :
    ExeStage.brTarget s.es =
      Datapath.target (esWord imem s) s.es.buf.main.bus.ctrl.pc (esArg1 cfg s i) := by
  have hx := h.decoded
  rcases h.srcBase_eq (not_ordinaryIntAlu (by simp [hbr])) with ⟨h1, -⟩
  rw [ExeStage.brTarget, ExeStage.pcJalr, hx.isJalr, hx.brJmpImm, hx.brJmpTarget, h1]
  rfl

theorem brRedirectTarget_eq (h : Executing cfg imem s i ρ)
    (hbr : isBrJmpInst (esWord imem s) = true) :
    brRedirectTarget cfg s i =
      Datapath.nextPc (esWord imem s) s.es.buf.main.bus.ctrl.pc (esArg1 cfg s i)
        (esArg2 cfg s i) := by
  rw [brRedirectTarget, ExeStage.brRedirectTarget, h.brTaken_eq hbr, h.brTarget_eq hbr]
  rfl

theorem isBrJmp_eq (h : Executing cfg imem s i ρ) :
    s.es.buf.main.bus.ctrl.isBrJmp = isBrJmpInst (esWord imem s) := by
  have hctrl := h.word.decoded.ctrl
  rw [hctrl]
  rfl

/-- An instruction that does not redirect fetch was predicted right. -/
theorem esHop_target (h : Executing cfg imem s i ρ) (hno : brRedirect cfg s i = false)
    (hpred : s.es.buf.main.bus.brJmp.bpPredTaken = true → isBrJmpInst (esWord imem s) = true) :
    (esHop s.es.buf.main).target =
      Datapath.nextPc (esWord imem s) s.es.buf.main.bus.ctrl.pc (esArg1 cfg s i)
        (esArg2 cfg s i) := by
  -- what is no branch is not predicted taken; a branch that does not redirect went as predicted
  cases hbr : isBrJmpInst (esWord imem s) with
  | false =>
      have hnot : s.es.buf.main.bus.brJmp.bpPredTaken = false := by
        cases hp : s.es.buf.main.bus.brJmp.bpPredTaken with
        | false => rfl
        | true =>
            have hjump := hpred hp
            rw [hbr] at hjump
            cases hjump
      rw [Datapath.nextPc_of_not_brJmp hbr]
      simp [esHop, hop, hnot]
  | true =>
      have hctrl : (ExeStage.bus s.es).ctrl.isBrJmp = true := h.isBrJmp_eq.trans hbr
      rw [brRedirect, ExeStage.brRedirect, h.esFlush, hctrl, h.brTaken_eq hbr,
        h.brTarget_eq hbr] at hno
      simp only [Bool.not_false, Bool.true_and, Bool.or_eq_false_iff, bne_eq_false_iff_eq] at hno
      rcases hno with ⟨htaken, htarget⟩
      have htaken' : s.es.buf.main.bus.brJmp.bpPredTaken =
          Datapath.taken (esWord imem s) (esArg1 cfg s i) (esArg2 cfg s i) := htaken.symm
      simp only [esHop, hop, Datapath.nextPc, htaken']
      cases ht : Datapath.taken (esWord imem s) (esArg1 cfg s i) (esArg2 cfg s i) with
      | false => rfl
      | true =>
          rw [ht, Bool.true_and, bne_eq_false_iff_eq] at htarget
          simp only [if_true]
          exact htarget.symm

/-! ### Its data request -/

theorem request_eq (h : Executing cfg imem s i ρ) :
    request cfg s i = Datapath.request (esWord imem s) (esArg1 cfg s i) (esArg2 cfg s i) := by
  have hreq := ExeStage.requested_of_decoded h.decoded h.valid h.esFlush
  rw [request, show dmemEn cfg s i = (memOp (esWord imem s)).any from hreq.en, Datapath.request]
  cases hany : (memOp (esWord imem s)).any with
  | false => rfl
  | true =>
      rcases h.srcBase_eq (not_ordinaryIntAlu (by simp [isMemInst_of_memOp hany])) with ⟨h1, h2⟩
      have haddr : dmemAddr s = esArg1 cfg s i + memImm (esWord imem s) := by
        rw [dmemAddr, hreq.addr, h1]
      have hwen : dmemWen cfg s i = Datapath.wen (esWord imem s) (dmemAddr s) := hreq.wen
      have hdata : dmemWdata s = Datapath.wdata (esWord imem s) (esArg2 cfg s i) := by
        rw [dmemWdata, hreq.wdata, h2]
      rw [hwen, hdata, haddr]

/-! ### Multiplication and division -/

theorem mulPorts_eq (h : Executing cfg imem s i ρ) (hc : Control s)
    (hmul : isMulInst (esWord imem s) = true) :
    ExeStage.mulPorts s.es (exePorts cfg s i) =
      Mul.busyPorts (mulPacket (esWord imem s)) (esArg1 cfg s i) (esArg2 cfg s i) := by
  have hx := h.decoded
  have hv : ExeStage.esValid s.es = true := h.valid
  have hallow : (exePorts cfg s i).msAllowin = true := hc.msAllowin
  have hcycle : isMulticycleInst (esWord imem s) = true := by
    simp only [isMulInst, isMulticycleInst, Bool.or_eq_true] at hmul ⊢
    tauto
  rcases h.srcBase_eq (not_ordinaryIntAlu (by simp [hmul])) with ⟨h1, h2⟩
  rw [ExeStage.mulPorts, hv, h.esFlush, h.ctrl, hx.mul, h1, h2, hallow]
  simp only [ctrlPacket, hmul, hcycle]
  rfl

end Executing

/-- An execute stage without a live multiplication or division asks the unit for nothing. -/
theorem mulPorts_idle (h : liveEs s = true → s.es.buf.main.bus.ctrl.isMul = false) :
    (ExeStage.mulPorts s.es (exePorts cfg s i)).isMul = false := by
  show (s.es.buf.valid && s.es.buf.main.bus.ctrl.isMul &&
    !(s.es.buf.main.dsFlush || exceptionFlag s i)) = false
  cases hlive : liveEs s with
  | true => simp [h hlive]
  | false =>
      rw [liveEs, Bool.and_eq_false_iff] at hlive
      rcases hlive with hv | hf
      · simp [hv]
      · have hf' : s.es.buf.main.dsFlush = true := by simpa using hf
        simp [hf']

end Cpu
end RiscvCpu
