import RiscvCpu.Refine.Retire
import RiscvCpu.Stack.Operand

/-!
# Unstacked — the word captured from the stack value buffer as an ordinary operand

A consumer of a stack load takes the captured word in place of an operand.  `unstacked` is the same
execute stage with that word in the operand's own place.  The consumer is a plain ALU instruction, so
nothing that leaves the stage tells the two apart, and what is known of a consumer without stack
operands holds of every consumer.
-/

namespace RiscvCpu

open Decode

/-! ## Plain ALU packets -/

/-- The packet is that of an ALU instruction and of nothing else. -/
structure PlainAlu (b : DsToEsBus) : Prop where
  isAlu : b.ctrl.isAlu = true
  isBitman : b.ctrl.isBitman = false
  isMul : b.ctrl.isMul = false
  isBrJmp : b.ctrl.isBrJmp = false
  isJal : b.brJmp.isJal = false
  isJalr : b.brJmp.isJalr = false
  noBranch : b.brJmp.brJmpOpcode.any = false
  memOp : b.mem.memOp = ⟨false, false, false, false, false⟩
  isStore : b.mem.isStore = false
  csrOp : b.csr.csrOp = ⟨false, false, false⟩

theorem plainAlu_of_decoded {x : Word} {b : DsToEsBus} (hx : Decoded x b)
    (h : ordinaryIntAlu x = true) : PlainAlu b := by
  simp only [ordinaryIntAlu, Bool.and_eq_true, Bool.not_eq_true', isMemInst, isCsrInst, isBrJmpInst,
    Bool.or_eq_false_iff] at h
  obtain ⟨⟨⟨⟨⟨⟨⟨halu, -⟩, -⟩, hmul⟩, hmem⟩, hcsr⟩, hjmp⟩, hbit⟩ := h
  obtain ⟨⟨⟨hload, hstore⟩, hflw⟩, hfsw⟩ := hmem
  obtain ⟨⟨⟨⟨⟨hrw, hrs⟩, hrc⟩, hrwi⟩, hrsi⟩, hrci⟩ := hcsr
  obtain ⟨⟨hbranch, hjal⟩, hjalr⟩ := hjmp
  have hctrl := hx.ctrl
  refine
    { isAlu := ?_, isBitman := ?_, isMul := ?_, isBrJmp := ?_, isJal := ?_, isJalr := ?_
      noBranch := ?_, memOp := ?_, isStore := ?_, csrOp := ?_ }
  · rw [hctrl]
    exact halu
  · rw [hctrl]
    exact hbit
  · rw [hctrl]
    exact hmul
  · rw [hctrl]
    simp [ctrlPacket, isBrJmpInst, hbranch, hjal, hjalr]
  · rw [hx.isJal, hjal]
  · rw [hx.isJalr, hjalr]
  · simp [hx.brJmpOpcode, brJmpOpcode, BrJmpOpcode.any, instBeq, instBne, instBlt, instBge,
      instBltu, instBgeu, hbranch]
  · simp [hx.memOp, memOp, instLb, instSb, instLh, instSh, instLw, instSw, instLbu, instLhu, hload,
      hstore, hflw, hfsw]
  · simp [hx.isStore, isStoreInst, hstore, hflw, hfsw]
  · simp [hx.csrOp, csrOp, hrw, hrs, hrc, hrwi, hrsi, hrci]

/-! ## The payload -/

namespace ExeStage

/-- The payload with `word` in the place of every operand that is taken from the stack buffer. -/
def Payload.unstacked (l : Payload) (word : Word) : Payload :=
  { l with
    bus := { l.bus with
      src :=
        { regSrc1 := if l.bus.src.stackSrc1Fwd then word else l.bus.src.regSrc1
          regSrc2 := if l.bus.src.stackSrc2Fwd then word else l.bus.src.regSrc2
          src1Fwd := if l.bus.src.stackSrc1Fwd then 0b00#2 else l.bus.src.src1Fwd
          src2Fwd := if l.bus.src.stackSrc2Fwd then 0b00#2 else l.bus.src.src2Fwd
          stackSrc1Fwd := false
          stackSrc2Fwd := false } } }

def Regs.unstacked (r : Regs) (word : Word) : Regs :=
  { r with buf := { r.buf with main := r.buf.main.unstacked word } }

theorem Payload.unstacked_of_not {l : Payload} {word : Word} (h1 : l.bus.src.stackSrc1Fwd = false)
    (h2 : l.bus.src.stackSrc2Fwd = false) : l.unstacked word = l := by
  rcases l with ⟨flush, ⟨bitmanOp, aluOp, mul, mem, csr, brJmp, ctrl, ⟨s1, s2, f1, f2, k1, k2⟩⟩, exc,
    exe, csrW, memR⟩
  simp only at h1 h2
  subst h1
  subst h2
  rfl

variable {cfg : Config} {r : Regs} {p : Ports} {word : Word}

/-- Nothing is replaced, or the instruction is a plain ALU instruction. -/
theorem Regs.unstacked_cases (h : Cpu.TakesStackWord (bus r) → PlainAlu (bus r)) :
    r.unstacked word = r ∨ PlainAlu (bus r) := by
  by_cases htakes : Cpu.TakesStackWord (bus r)
  · exact Or.inr (h htakes)
  · left
    simp only [Cpu.TakesStackWord, not_or, Bool.not_eq_true] at htakes
    have hmain : r.buf.main.unstacked word = r.buf.main :=
      Payload.unstacked_of_not htakes.1 htakes.2
    rw [Regs.unstacked, hmain]

/-! ### What leaves the stage -/

theorem aluSrc_unstacked (hp : p.stackForwardData = word) :
    aluSrc1 cfg (r.unstacked word) p = aluSrc1 cfg r p ∧
      aluSrc2 cfg (r.unstacked word) p = aluSrc2 cfg r p := by
  constructor
  · show aluSrc cfg p false (if (bus r).src.stackSrc1Fwd then 0b00#2 else (bus r).src.src1Fwd)
      (srcBase (if (bus r).src.stackSrc1Fwd then 0b00#2 else (bus r).src.src1Fwd) r.buf.main.exeResult
        r.buf.main.memResult (if (bus r).src.stackSrc1Fwd then word else (bus r).src.regSrc1)) =
      aluSrc cfg p (bus r).src.stackSrc1Fwd (bus r).src.src1Fwd (src1Base r)
    cases (bus r).src.stackSrc1Fwd with
    | true => simp [aluSrc, srcBase, hp]
    | false => rfl
  · show aluSrc cfg p false (if (bus r).src.stackSrc2Fwd then 0b00#2 else (bus r).src.src2Fwd)
      (srcBase (if (bus r).src.stackSrc2Fwd then 0b00#2 else (bus r).src.src2Fwd) r.buf.main.exeResult
        r.buf.main.memResult (if (bus r).src.stackSrc2Fwd then word else (bus r).src.regSrc2)) =
      aluSrc cfg p (bus r).src.stackSrc2Fwd (bus r).src.src2Fwd (src2Base r)
    cases (bus r).src.stackSrc2Fwd with
    | true => simp [aluSrc, srcBase, hp]
    | false => rfl

theorem exeResult_of_plainAlu (h : PlainAlu (bus r)) :
    exeResult cfg r p =
      if esFlush r p then 0#32
      else aluResult (bus r).aluOp (aluSrc1 cfg r p) (aluSrc2 cfg r p) := by
  simp only [exeResult, h.isBitman, h.isAlu, Bool.false_eq_true, if_false, if_true]

theorem brTaken_of_plainAlu (h : PlainAlu (bus r)) : brTaken r p = false := by
  simp [brTaken, h.isJal, h.isJalr, h.noBranch]

theorem brTarget_of_plainAlu (h : PlainAlu (bus r)) :
    brTarget r = (bus r).brJmp.brJmpTarget := by
  simp [brTarget, h.isJalr]

theorem brRedirect_of_plainAlu (h : PlainAlu (bus r)) : brRedirect r p = false := by
  simp [brRedirect, h.isBrJmp]

theorem csrWdata_of_plainAlu (h : PlainAlu (bus r)) : csrWdata r = 0#32 := by
  simp [csrWdata, h.csrOp]

theorem dmemEn_of_plainAlu (h : PlainAlu (bus r)) : dmemEn r p = false := by
  simp [dmemEn, h.memOp, MemOp.any]

/-- The packet of the unstacked stage is of the same class. -/
theorem plainAlu_unstacked (h : PlainAlu (bus r)) : PlainAlu (bus (r.unstacked word)) :=
  { isAlu := h.isAlu
    isBitman := h.isBitman
    isMul := h.isMul
    isBrJmp := h.isBrJmp
    isJal := h.isJal
    isJalr := h.isJalr
    noBranch := h.noBranch
    memOp := h.memOp
    isStore := h.isStore
    csrOp := h.csrOp }

section Same

variable (hp : p.stackForwardData = word) (h : Cpu.TakesStackWord (bus r) → PlainAlu (bus r))
include h

theorem brRedirect_unstacked : brRedirect (r.unstacked word) p = brRedirect r p := by
  rcases @Regs.unstacked_cases r word h with heq | hplain
  · rw [heq]
  · rw [brRedirect_of_plainAlu hplain, brRedirect_of_plainAlu (plainAlu_unstacked hplain)]

theorem exeExcBus_unstacked : exeExcBus (r.unstacked word) p = exeExcBus r p := by
  rcases @Regs.unstacked_cases r word h with heq | hplain
  · rw [heq]
  · rw [exeExcBus, exeExcBus, brTaken_of_plainAlu hplain, brTaken_of_plainAlu (plainAlu_unstacked hplain),
      brTarget_of_plainAlu hplain, brTarget_of_plainAlu (plainAlu_unstacked hplain)]
    rfl

include hp

theorem exeResult_unstacked : exeResult cfg (r.unstacked word) p = exeResult cfg r p := by
  rcases @Regs.unstacked_cases r word h with heq | hplain
  · rw [heq]
  · rcases @aluSrc_unstacked cfg r p word hp with ⟨h1, h2⟩
    rw [exeResult_of_plainAlu hplain, exeResult_of_plainAlu (plainAlu_unstacked hplain), h1, h2]
    rfl

theorem esToMsBus_unstacked : esToMsBus cfg (r.unstacked word) p = esToMsBus cfg r p := by
  have hresult := @exeResult_unstacked cfg r p word hp h
  rcases @Regs.unstacked_cases r word h with heq | hplain
  · rw [heq]
  · rw [esToMsBus, esToMsBus, hresult, csrWdata_of_plainAlu hplain,
      csrWdata_of_plainAlu (plainAlu_unstacked hplain)]
    rfl

end Same

/-! ### The unit -/

/-- A unit that is asked for nothing does not look at the operands. -/
theorem unitNext_idle {m : Mul.Regs} {d : Divider.Regs} {q q' : Mul.Ports} (hq : q.isMul = false)
    (hq' : q'.isMul = false) (hready : q.resultReady = q'.resultReady) (hkill : q.kill = q'.kill) :
    Mul.unitNext m d q = Mul.unitNext m d q' := by
  have hstart : Mul.divStart m q = false ∧ Mul.divStart m q' = false := by
    simp [Mul.divStart, hq, hq']
  have hspecial : Mul.divSpecial q = false ∧ Mul.divSpecial q' = false := by
    simp [Mul.divSpecial, hq, hq']
  have hpipe : MulPipeline.next mulHighCycle m.pipe (Mul.pipePorts q) =
      MulPipeline.next mulHighCycle m.pipe (Mul.pipePorts q') := by
    simp [MulPipeline.next, Mul.pipePorts, Mul.mulStart, MulPipeline.startAccept, hq, hq', hready,
      hkill]
  have hdivider : Divider.next d (Mul.toDivider m q) = Divider.next d (Mul.toDivider m q') := by
    simp [Divider.next, Mul.toDivider, Divider.inputHandshakeDone, hstart]
  have hports : Mul.fromDivider m d q = Mul.fromDivider m d q' := by
    simp [Mul.fromDivider, Mul.toDivider, Divider.divisorTready, Divider.dividendTready, hstart]
  rw [Mul.unitNext, Mul.unitNext, hdivider, hports]
  simp only [Mul.next, Mul.Build.core, hpipe, hstart, hspecial, hkill, Bool.false_eq_true, if_false]

end ExeStage

namespace Cpu

open ExeStage

/-! ## The core -/

/-- The core with the captured word in the operand's own place. -/
def unstacked (s : Cpu) : Cpu := { s with es := s.es.unstacked s.stack.capturedData }

variable {cfg : Config} {imem : Word → Word} {s : Cpu} {i : CpuIn}

/-- Only plain ALU instructions take a word from the stack buffer. -/
def StackPlain (s : Cpu) : Prop := TakesStackWord s.es.buf.main.bus → PlainAlu s.es.buf.main.bus

theorem unstacked_of_not (h : ¬ TakesStackWord s.es.buf.main.bus) : s.unstacked = s := by
  simp only [TakesStackWord, not_or, Bool.not_eq_true] at h
  have hmain : s.es.buf.main.unstacked s.stack.capturedData = s.es.buf.main :=
    Payload.unstacked_of_not h.1 h.2
  rw [unstacked, Regs.unstacked, hmain]

theorem payloadOf_unstacked {x word : Word} {l : Payload} (hx : PayloadOf x l) :
    PayloadOf x (l.unstacked word) :=
  { decoded :=
      { bitmanOp := hx.decoded.bitmanOp
        aluOp := hx.decoded.aluOp
        mul := hx.decoded.mul
        memImm := hx.decoded.memImm
        memOp := hx.decoded.memOp
        isStore := hx.decoded.isStore
        stackBaseReg := hx.decoded.stackBaseReg
        csrImm := hx.decoded.csrImm
        csrWaddr := hx.decoded.csrWaddr
        csrOp := hx.decoded.csrOp
        csrImmSel := hx.decoded.csrImmSel
        csrWen := hx.decoded.csrWen
        brJmpTarget := hx.decoded.brJmpTarget
        brJmpImm := hx.decoded.brJmpImm
        brJmpOpcode := hx.decoded.brJmpOpcode
        isJal := hx.decoded.isJal
        isJalr := hx.decoded.isJalr
        ctrl := hx.decoded.ctrl }
    excCode := hx.excCode
    excMtval := hx.excMtval }

theorem control_unstacked (hc : Control s) : Control s.unstacked :=
  { wsAllowin := hc.wsAllowin
    msAllowin := hc.msAllowin
    msSkid := hc.msSkid
    dsWf := hc.dsWf
    esWf := ⟨hc.esWf.stopped, hc.esWf.occupied⟩
    active := hc.active
    dsExc := hc.dsExc
    esMain := by
      rcases hc.esMain with ⟨x, hx⟩
      exact ⟨x, payloadOf_unstacked hx⟩
    esSkid := hc.esSkid
    msMain := hc.msMain
    esStopped := hc.esStopped
    esSkidLive := hc.esSkidLive
    esFollowed := hc.esFollowed
    dsFollowed := hc.dsFollowed
    dsSkidFollowed := hc.dsSkidFollowed
    dsSkidMark := hc.dsSkidMark
    esBubble := hc.esBubble
    msFollowed := hc.msFollowed
    msBubble := hc.msBubble }

section Same

variable (h : StackPlain s)
include h

theorem brRedirect_eq_unstacked : brRedirect cfg s.unstacked i = brRedirect cfg s i :=
  brRedirect_unstacked h

theorem request_eq_unstacked : request cfg s.unstacked i = request cfg s i := by
  rcases @Regs.unstacked_cases s.es s.stack.capturedData h with heq | hplain
  · have hsame : s.unstacked = s := by rw [unstacked, heq]
    rw [hsame]
  · have hno : dmemEn cfg s i = false := dmemEn_of_plainAlu hplain
    have hno' : dmemEn cfg s.unstacked i = false := dmemEn_of_plainAlu (plainAlu_unstacked hplain)
    rw [request, request, hno, hno']
    rfl

/-- The memory stage, write-back and the CSR file are the same after the edge. -/
theorem next_unstacked :
    (next cfg s.unstacked i).ms = (next cfg s i).ms ∧
      (next cfg s.unstacked i).ws = (next cfg s i).ws ∧
      (next cfg s.unstacked i).csr = (next cfg s i).csr ∧
      (next cfg s.unstacked i).es.mul = (next cfg s i).es.mul ∧
      (next cfg s.unstacked i).es.divider = (next cfg s i).es.divider := by
  have hports : exePorts cfg s.unstacked i = exePorts cfg s i := rfl
  have hbus : esToMsBus cfg s.unstacked.es (exePorts cfg s.unstacked i) =
      esToMsBus cfg s.es (exePorts cfg s i) := esToMsBus_unstacked rfl h
  have hexc : exeExcBus s.unstacked.es (exePorts cfg s.unstacked i) = exeExcBus s.es (exePorts cfg s i) :=
    exeExcBus_unstacked h
  have hbr : brRedirect cfg s.unstacked i = brRedirect cfg s i := brRedirect_unstacked h
  have hmem : memInPorts cfg s.unstacked i = memInPorts cfg s i := by
    simp only [memInPorts, hbus, hexc]
    rfl
  have hunit : Mul.unitNext s.es.mul s.es.divider (mulPorts s.unstacked.es (exePorts cfg s i)) =
      Mul.unitNext s.es.mul s.es.divider (mulPorts s.es (exePorts cfg s i)) := by
    rcases @Regs.unstacked_cases s.es s.stack.capturedData h with heq | hplain
    · have hsame : s.unstacked.es = s.es := heq
      rw [hsame]
    · have hno : (bus s.es).ctrl.isMul = false := hplain.isMul
      have hidle : (mulPorts s.es (exePorts cfg s i)).isMul = false := by simp [mulPorts, hno]
      exact unitNext_idle hidle hidle rfl rfl
  refine ⟨?_, rfl, ?_, congrArg Prod.fst hunit, congrArg Prod.snd hunit⟩
  · show MemStage.next s.ms (memInPorts cfg s.unstacked i) _ _ = _
    rw [hmem]
    rfl
  · show RegfileCsr.next s.csr (csrPorts cfg s.unstacked i) = _
    simp only [csrPorts, hbr]
    rfl

/-- What is ahead of decode is the same. -/
theorem ahead_unstacked {ρ : BitVec 5 → Word} {rdata : Word}
    (hA : Ahead cfg s.unstacked i ρ rdata) : Ahead cfg s i ρ rdata :=
  { zero := hA.zero
    written := by
      intro hw hne hpend
      have hresult : exeResult cfg s.unstacked.es (exePorts cfg s i) = exeResult cfg s.es (exePorts cfg s i) :=
        exeResult_unstacked rfl h
      rw [← hresult]
      exact hA.written hw hne hpend
    loaded := hA.loaded
    other := hA.other }

end Same

/-! ## What decode hands to execute -/

/-- The first operand of the instruction that execute accepts, unless it takes a stack word. -/
theorem operand1_plain {ρ : BitVec 5 → Word} {rdata : Word}
    (hf : usesF (IdStage.idInst s.ds) = false)
    (hno : IdStage.stackLwRs1 s.ds (idPorts cfg s i) = false)
    (hfire : SkidBuffer.inFire s.es.buf (esWires cfg s i) = true) (hA : Ahead cfg s i ρ rdata)
    (huse : Datapath.uses1 (IdStage.idInst s.ds) = true) :
    argument cfg (IdStage.src1Fwd cfg s.ds (idPorts cfg s i)) (exeResult cfg s.es (exePorts cfg s i))
        (memResult s i) (IdStage.regSrc1 s.ds (idPorts cfg s i)) rdata =
      Datapath.operand1 (IdStage.idInst s.ds) s.ds.buf.main.bus.pc ρ := by
  rw [IdStage.src1Fwd, IdStage.regSrc1, instFlw_eq_false hf, instFsw_eq_false hf, src_eq.1,
    Datapath.operand1]
  cases hlui : instLui (IdStage.idInst s.ds) with
  | true =>
      simp only [Bool.true_or, if_true, argument_unforwarded]
      rfl
  | false =>
      cases hauipc : instAuipc (IdStage.idInst s.ds) with
      | true =>
          simp only [Bool.or_true, if_true, argument_unforwarded]
          rfl
      | false =>
          have hneed : needRs1 (IdStage.idInst s.ds) = true := by
            simpa [Datapath.uses1, hlui, hauipc] using huse
          exact argument_srcFwd hA liveSelect_rs1 fun hlive hrs hw hrd =>
            not_awaited_of_plain hfire hrs hw hrd (Or.inl ⟨hneed, rfl, hlive, hno⟩)

theorem operand2_plain {ρ : BitVec 5 → Word} {rdata : Word}
    (hno : IdStage.stackLwRs2 s.ds (idPorts cfg s i) = false)
    (hfire : SkidBuffer.inFire s.es.buf (esWires cfg s i) = true) (hA : Ahead cfg s i ρ rdata)
    (huse : Datapath.uses2 (IdStage.idInst s.ds) = true) :
    argument cfg (IdStage.src2Fwd cfg s.ds (idPorts cfg s i)) (exeResult cfg s.es (exePorts cfg s i))
        (memResult s i) (IdStage.regSrc2 s.ds (idPorts cfg s i)) rdata =
      Datapath.operand2 (IdStage.idInst s.ds) ρ := by
  rw [IdStage.src2Fwd, IdStage.regSrc2, src_eq.2, Datapath.operand2]
  cases hindex : instBitmanImmInst (IdStage.idInst s.ds) with
  | true => simp only [Bool.or_true, Bool.true_or, if_true, argument_unforwarded]
  | false =>
      cases hsel : aluSrc2ImmSel (IdStage.idInst s.ds) with
      | true => simp only [Bool.true_or, if_true, argument_unforwarded]
      | false =>
          cases hunary : (instBitmanAny (IdStage.idInst s.ds) &&
              !instBitmanRs2Inst (IdStage.idInst s.ds)) with
          | true =>
              simp only [Bool.or_true, if_true, argument_unforwarded, Bool.false_eq_true, if_false,
                rs2Addr_of_unary hsel hunary, hA.zero]
              rfl
          | false =>
              have hneed : needRs2 (IdStage.idInst s.ds) = true := by
                simpa [Datapath.uses2, hsel] using huse
              exact argument_srcFwd hA liveSelect_rs2 fun hlive hrs hw hrd =>
                not_awaited_of_plain hfire hrs hw hrd (Or.inr ⟨hneed, rfl, hlive, hno⟩)

/-- The register that a stack word stands for is the one that the load in execute writes. -/
theorem stackLwRs1_parts (h : IdStage.stackLwRs1 s.ds (idPorts cfg s i) = true) :
    exeStackLwHit s.es (exePorts cfg s i) = true ∧ ordinaryIntAlu (IdStage.idInst s.ds) = true ∧
      rs1Addr (IdStage.idInst s.ds) = s.es.buf.main.bus.ctrl.rdAddr := by
  simp only [IdStage.stackLwRs1, IdStage.exeWrites, Bool.and_eq_true, beq_iff_eq] at h
  obtain ⟨⟨hhit, hcons⟩, ⟨-, hrd⟩, -⟩ := h
  refine ⟨hhit, ?_, hrd⟩
  simp only [IdStage.ordinaryIntAluConsumer, Bool.and_eq_true] at hcons
  simp only [ordinaryIntAlu, Bool.and_eq_true]
  tauto

theorem stackLwRs2_parts (h : IdStage.stackLwRs2 s.ds (idPorts cfg s i) = true) :
    exeStackLwHit s.es (exePorts cfg s i) = true ∧ ordinaryIntAlu (IdStage.idInst s.ds) = true ∧
      isOpReg (IdStage.idInst s.ds) = true ∧
      rs2Addr (IdStage.idInst s.ds) = s.es.buf.main.bus.ctrl.rdAddr := by
  simp only [IdStage.stackLwRs2, IdStage.exeWrites, Bool.and_eq_true, beq_iff_eq] at h
  obtain ⟨⟨⟨hhit, hcons⟩, hreg⟩, ⟨-, hrd⟩, -⟩ := h
  refine ⟨hhit, ?_, hreg, hrd⟩
  simp only [IdStage.ordinaryIntAluConsumer, Bool.and_eq_true] at hcons
  simp only [ordinaryIntAlu, Bool.and_eq_true]
  tauto

/-- An ordinary ALU instruction reads its registers. -/
theorem operands_of_ordinaryIntAlu {x pc : Word} {ρ : BitVec 5 → Word}
    (h : ordinaryIntAlu x = true) :
    Datapath.operand1 x pc ρ = ρ (rs1Addr x) ∧
      (isOpReg x = true → Datapath.operand2 x ρ = ρ (rs2Addr x)) := by
  simp only [ordinaryIntAlu, Bool.and_eq_true, Bool.or_eq_true] at h
  have hop := h.1.1.1.1.1.1.2
  constructor
  · have hlui : instLui x = false ∧ instAuipc x = false := by
      rcases hop with hreg | himm
      · simp only [isOpReg, beq_iff_eq] at hreg
        simp [instLui, instAuipc, isLui, isAuipc, hreg]
      · simp only [isOpImm, beq_iff_eq] at himm
        simp [instLui, instAuipc, isLui, isAuipc, himm]
    simp [Datapath.operand1, hlui]
  · intro hreg
    simp only [isOpReg, beq_iff_eq] at hreg
    have hindex : instBitmanImmInst x = false := by
      simp [instBitmanImmInst, instBclri, instBexti, instBinvi, isBitmanImm, hreg]
    have hsel : aluSrc2ImmSel x = false := by simp [aluSrc2ImmSel, isOpImm, isLui, isAuipc, hreg]
    simp [Datapath.operand2, hindex, hsel]

/-- An instruction that passes to execute carries the registers after the one in execute, once the
captured word stands in the place of the stack operands. -/
theorem carries_unstacked {ρ : BitVec 5 → Word} {rdata word : Word}
    (hword : IdStage.idInst s.ds = imem s.ds.buf.main.bus.pc)
    (hf : usesF (IdStage.idInst s.ds) = false)
    (hfire : SkidBuffer.inFire s.es.buf (esWires cfg s i) = true) (hA : Ahead cfg s i ρ rdata)
    (hcap : exeStackLwHit s.es (exePorts cfg s i) = true →
      word = ρ s.es.buf.main.bus.ctrl.rdAddr) :
    Carries cfg imem ρ rdata ((esPayload cfg s i).unstacked word) := by
  refine { noStack1 := rfl, noStack2 := rfl, live := ?_, operands := ?_ }
  · -- a select that is left is one of decode
    intro htakes
    have htakes' : TakesLiveLoad (dsToEsBus cfg s i) := by
      rcases htakes with h | h
      · left
        cases hk : IdStage.stackLwRs1 s.ds (idPorts cfg s i) with
        | true =>
            have hk' : (esPayload cfg s i).bus.src.stackSrc1Fwd = true := hk
            simp [Payload.unstacked, hk'] at h
        | false =>
            have hk' : (esPayload cfg s i).bus.src.stackSrc1Fwd = false := hk
            have hsame : (esPayload cfg s i).bus.src.src1Fwd = 0b11#2 := by
              simpa [Payload.unstacked, hk'] using h
            exact hsame
      · right
        cases hk : IdStage.stackLwRs2 s.ds (idPorts cfg s i) with
        | true =>
            have hk' : (esPayload cfg s i).bus.src.stackSrc2Fwd = true := hk
            simp [Payload.unstacked, hk'] at h
        | false =>
            have hk' : (esPayload cfg s i).bus.src.stackSrc2Fwd = false := hk
            have hsame : (esPayload cfg s i).bus.src.src2Fwd = 0b11#2 := by
              simpa [Payload.unstacked, hk'] using h
            exact hsame
    show ordinaryIntAlu (imem s.ds.buf.main.bus.pc) = true
    rw [← hword]
    exact (granted_of_takesLiveLoad htakes').2
  · show Datapath.Operands (imem s.ds.buf.main.bus.pc) s.ds.buf.main.bus.pc ρ
      (argument cfg
        (if IdStage.stackLwRs1 s.ds (idPorts cfg s i) then 0b00#2
          else IdStage.src1Fwd cfg s.ds (idPorts cfg s i))
        (exeResult cfg s.es (exePorts cfg s i)) (memResult s i)
        (if IdStage.stackLwRs1 s.ds (idPorts cfg s i) then word
          else IdStage.regSrc1 s.ds (idPorts cfg s i)) rdata)
      (argument cfg
        (if IdStage.stackLwRs2 s.ds (idPorts cfg s i) then 0b00#2
          else IdStage.src2Fwd cfg s.ds (idPorts cfg s i))
        (exeResult cfg s.es (exePorts cfg s i)) (memResult s i)
        (if IdStage.stackLwRs2 s.ds (idPorts cfg s i) then word
          else IdStage.regSrc2 s.ds (idPorts cfg s i)) rdata)
    rw [← hword]
    constructor
    · intro huse
      cases hk : IdStage.stackLwRs1 s.ds (idPorts cfg s i) with
      | true =>
          rcases stackLwRs1_parts hk with ⟨hhit, hord, hrd⟩
          rw [if_pos rfl, if_pos rfl, argument_unforwarded, (operands_of_ordinaryIntAlu hord).1, hrd,
            hcap hhit]
      | false => exact operand1_plain hf hk hfire hA huse
    · intro huse
      cases hk : IdStage.stackLwRs2 s.ds (idPorts cfg s i) with
      | true =>
          rcases stackLwRs2_parts hk with ⟨hhit, hord, hreg, hrd⟩
          rw [if_pos rfl, if_pos rfl, argument_unforwarded,
            (@operands_of_ordinaryIntAlu _ s.ds.buf.main.bus.pc _ hord).2 hreg, hrd, hcap hhit]
      | false => exact operand2_plain hk hfire hA huse

/-- What takes a stack word is a plain ALU instruction. -/
theorem plainAlu_of_takes (h : TakesStackWord (dsToEsBus cfg s i)) :
    PlainAlu (dsToEsBus cfg s i) := by
  have hord : ordinaryIntAlu (IdStage.idInst s.ds) = true := by
    rcases h with h | h
    · exact (stackLwRs1_parts h).2.1
    · exact (stackLwRs2_parts h).2.1
  exact plainAlu_of_decoded
    (decoded_dsToEsBus cfg s.ds (idPorts cfg s i) (stackQueryHit cfg s i)) hord

namespace Retiring

variable {σ : Isa.State} {ins : Isa.Instr}

/-- The word that a load reads which captures its entry is the value that it writes. -/
theorem loaded_of_capture {rdata : Word} (h : Retiring cfg imem s i σ ins)
    (hdata : Answered cfg s i σ.mem rdata)
    (hhit : exeStackLwHit s.es (exePorts cfg s i) = true) :
    (Isa.step imem σ).read s.es.buf.main.bus.ctrl.rdAddr = rdata := by
  have hctrl := h.executing.ctrl
  have hwrite := h.write_eq
  simp only [exeStackLwHit, Bool.and_eq_true, bne_iff_ne, ne_eq] at hhit
  obtain ⟨⟨⟨⟨-, hlw⟩, -⟩, hwen⟩, hne⟩ := hhit
  have hwen' : ctrlRegfileWen (esWord imem s) = true := by
    rw [hctrl] at hwen
    exact hwen
  have hne' : rdAddr (esWord imem s) ≠ 0#5 := by
    rw [hctrl] at hne
    exact hne
  have hload := instLw_of_es h.executing.decoded hlw
  have hclass := class_of_instLw hload
  have hb : (rdAddr (esWord imem s) != 0#5) = true := by simpa using hne'
  rw [hwen', hb, Bool.and_self, if_pos rfl] at hwrite
  rw [h.esWrites_eq.2, Isa.step_read_same hwrite hne']
  rcases h.dmemAddr_eq hclass.2.2.2.2.1 with ⟨hen, haddr⟩
  rw [hdata hen, haddr]
  have hvec := loadInstOf_of_instLw hload
  simp [Datapath.written, hclass.2.2.2.1, Datapath.loadValue, hvec, LoadInst.LW, LoadInst.LB,
    LoadInst.LBU, LoadInst.LH, LoadInst.LHU]

end Retiring

end Cpu
end RiscvCpu
