import RiscvCpu.Refine.Execute

/-!
# Operands — what decode hands to execute

The select of a source register names the youngest instruction ahead that writes it: the one in
execute, the one in the memory stage, the one in write-back, or none.  An instruction that the hazard
check lets pass therefore carries the registers as they are after the instruction in execute.
-/

namespace RiscvCpu

open Decode

namespace Cpu

variable {cfg : Config} {imem : Word → Word} {s : Cpu} {i : CpuIn} {ρ : BitVec 5 → Word}
  {rdata : Word}

/-! ## The registers behind execute -/

/-- The register `r` once the instructions past execute have written theirs. -/
def regView (s : Cpu) (i : CpuIn) (r : BitVec 5) : Word :=
  if MemStage.memRegfileWen s.ms (exceptionFlag s i) && (MemStage.memDstAddr s.ms == r) then
    memResult s i
  else if WbStage.regfileWen s.ws && (WbStage.regfileAddr s.ws == r) then
    WbStage.regfileWdata s.ws
  else s.regfile r

/-- The instruction in execute writes an integer register. -/
def esWrites (cfg : Config) (s : Cpu) (i : CpuIn) : Bool :=
  ExeStage.exeRegfileWen s.es (exePorts cfg s i)

/-- `ρ` are the registers after the instruction in execute, and `rdata` is the word that the data
memory answers it with. -/
structure Ahead (cfg : Config) (s : Cpu) (i : CpuIn) (ρ : BitVec 5 → Word) (rdata : Word) :
    Prop where
  zero : ρ 0#5 = 0#32
  written : esWrites cfg s i = true → s.es.buf.main.bus.ctrl.rdAddr ≠ 0#5 →
    IdStage.exeForwardPending (idPorts cfg s i) = false →
    ρ s.es.buf.main.bus.ctrl.rdAddr = ExeStage.exeResult cfg s.es (exePorts cfg s i)
  loaded : ExeStage.exeLwLiveOk cfg s.es (exePorts cfg s i) = true →
    ρ s.es.buf.main.bus.ctrl.rdAddr = rdata
  other : ∀ r, r ≠ 0#5 → ¬ (esWrites cfg s i = true ∧ s.es.buf.main.bus.ctrl.rdAddr = r) →
    ρ r = regView s i r

/-! ## One source register -/

/-- `src1` and `src2`: the register `rs` with the bypass from write-back. -/
def readWithBypass (s : Cpu) (rs : BitVec 5) : Word :=
  if rs == 0#5 then 0#32
  else if WbStage.regfileWen s.ws && (WbStage.regfileAddr s.ws == rs) then
    WbStage.regfileWdata s.ws
  else Regfiles.rdata s.regfile rs

theorem src_eq :
    IdStage.src1 s.ds (idPorts cfg s i) = readWithBypass s (rs1Addr (IdStage.idInst s.ds)) ∧
      IdStage.src2 s.ds (idPorts cfg s i) = readWithBypass s (rs2Addr (IdStage.idInst s.ds)) :=
  ⟨rfl, rfl⟩

/-- The register that a live select names is written by the load in execute. -/
def LiveSelect (cfg : Config) (s : Cpu) (i : CpuIn) (live : Bool) (rs : BitVec 5) : Prop :=
  live = true → cfg.lwLiveBypassEnable = true ∧
    ExeStage.exeLwLiveOk cfg s.es (exePorts cfg s i) = true ∧
    rs = s.es.buf.main.bus.ctrl.rdAddr

theorem liveSelect_rs1 :
    LiveSelect cfg s i (IdStage.liveLwRs1 cfg s.ds (idPorts cfg s i))
      (rs1Addr (IdStage.idInst s.ds)) := by
  intro h
  simp only [IdStage.liveLwRs1, IdStage.exeWrites, Bool.and_eq_true, beq_iff_eq] at h
  exact ⟨h.1, h.2.1.1.1, h.2.2.1.2⟩

theorem liveSelect_rs2 :
    LiveSelect cfg s i (IdStage.liveLwRs2 cfg s.ds (idPorts cfg s i))
      (rs2Addr (IdStage.idInst s.ds)) := by
  intro h
  simp only [IdStage.liveLwRs2, IdStage.exeWrites, Bool.and_eq_true, beq_iff_eq] at h
  exact ⟨h.1, h.2.1.1.1, h.2.2.1.2⟩

theorem memRegfileWen_valid (h : MemStage.memRegfileWen s.ms (exceptionFlag s i) = true) :
    s.ms.buf.valid = true := by
  simp only [MemStage.memRegfileWen, Bool.and_eq_true] at h
  exact h.1.1.1

theorem esWrites_valid (h : esWrites cfg s i = true) : s.es.buf.valid = true := by
  simp only [esWrites, ExeStage.exeRegfileWen, Bool.and_eq_true] at h
  exact h.1.1

/-- The select of a source register: whoever writes a register is valid, so only the writers and their
destinations count. -/
theorem srcFwd_eq {live : Bool} {rs : BitVec 5} (hrs : rs ≠ 0#5) :
    IdStage.srcFwd (idPorts cfg s i) live rs =
      if live then 0b11#2
      else if esWrites cfg s i && (s.es.buf.main.bus.ctrl.rdAddr == rs) then 0b01#2
      else if MemStage.memRegfileWen s.ms (exceptionFlag s i) && (MemStage.memDstAddr s.ms == rs) then
        0b10#2
      else 0b00#2 := by
  have hes : (esWrites cfg s i && (s.es.buf.main.bus.ctrl.rdAddr == rs) && s.es.buf.valid) =
      (esWrites cfg s i && (s.es.buf.main.bus.ctrl.rdAddr == rs)) := by
    cases hw : esWrites cfg s i with
    | false => rfl
    | true => simp [esWrites_valid hw]
  have hms : (MemStage.memRegfileWen s.ms (exceptionFlag s i) && (MemStage.memDstAddr s.ms == rs) &&
        s.ms.buf.valid) =
      (MemStage.memRegfileWen s.ms (exceptionFlag s i) && (MemStage.memDstAddr s.ms == rs)) := by
    cases hw : MemStage.memRegfileWen s.ms (exceptionFlag s i) with
    | false => rfl
    | true => simp [memRegfileWen_valid hw]
  rw [← hes, ← hms, IdStage.srcFwd, if_pos (bne_iff_ne.mpr hrs)]
  rfl

/-- A register read in decode, forwarded as its select says, is that register of `ρ`. -/
theorem argument_srcFwd (hA : Ahead cfg s i ρ rdata) {rs : BitVec 5} {live : Bool}
    (hlive : LiveSelect cfg s i live rs)
    (hwait : live = false → rs ≠ 0#5 → esWrites cfg s i = true →
      s.es.buf.main.bus.ctrl.rdAddr = rs → IdStage.exeForwardPending (idPorts cfg s i) = false) :
    ExeStage.argument cfg (IdStage.srcFwd (idPorts cfg s i) live rs)
      (ExeStage.exeResult cfg s.es (exePorts cfg s i)) (memResult s i) (readWithBypass s rs)
      rdata = ρ rs := by
  by_cases hrs : rs = 0#5
  · subst hrs
    rw [hA.zero]
    exact ExeStage.argument_unforwarded cfg _ _ 0#32 rdata
  · rw [srcFwd_eq hrs]
    cases live with
    | true =>
        rcases hlive rfl with ⟨hcfg, hok, heq⟩
        rw [heq, hA.loaded hok]
        simp [ExeStage.argument, hcfg]
    | false =>
        by_cases hw : esWrites cfg s i = true ∧ s.es.buf.main.bus.ctrl.rdAddr = rs
        · -- the instruction in execute has its result
          rcases hw with ⟨hw, hrd⟩
          have hpend := hwait rfl hrs hw hrd
          have hresult := hA.written hw (by rw [hrd]; exact hrs) hpend
          rw [hrd] at hresult
          rw [hresult]
          simp [hw, hrd, ExeStage.argument, ExeStage.srcBase]
        · rw [hA.other rs hrs hw, regView]
          have hnot : (esWrites cfg s i && (s.es.buf.main.bus.ctrl.rdAddr == rs)) = false := by
            by_contra hn
            apply hw
            simpa using hn
          rw [hnot]
          cases hm : (MemStage.memRegfileWen s.ms (exceptionFlag s i) &&
              (MemStage.memDstAddr s.ms == rs)) with
          | true => simp [ExeStage.argument, ExeStage.srcBase]
          | false =>
              have hz : (rs == 0#5) = false := by simpa using hrs
              simp [ExeStage.argument, ExeStage.srcBase, readWithBypass, Regfiles.rdata, hz, hrs]

/-! ## The hazard check -/

/-- A source register that a passing instruction needs, and that nothing of this cycle replaces, is
not awaited. -/
theorem not_awaited_of_plain (hfire : SkidBuffer.inFire s.es.buf (esWires cfg s i) = true)
    {rs : BitVec 5} (hrs : rs ≠ 0#5) (hw : esWrites cfg s i = true)
    (hrd : s.es.buf.main.bus.ctrl.rdAddr = rs)
    (hneed :
      (needRs1 (IdStage.idInst s.ds) = true ∧ rs1Addr (IdStage.idInst s.ds) = rs ∧
        IdStage.liveLwRs1 cfg s.ds (idPorts cfg s i) = false ∧
          IdStage.stackLwRs1 s.ds (idPorts cfg s i) = false) ∨
      (needRs2 (IdStage.idInst s.ds) = true ∧ rs2Addr (IdStage.idInst s.ds) = rs ∧
        IdStage.liveLwRs2 cfg s.ds (idPorts cfg s i) = false ∧
          IdStage.stackLwRs2 s.ds (idPorts cfg s i) = false)) :
    IdStage.exeForwardPending (idPorts cfg s i) = false := by
  rw [es_inFire, Bool.and_eq_true, Bool.and_eq_true, Bool.not_eq_true'] at hfire
  rcases hfire with ⟨⟨hv, hhaz⟩, -⟩
  have hdv : IdStage.dsValid s.ds = true := hv
  have hwait (need : Bool) (hneed' : need = true) :
      IdStage.exeRsHazard (idPorts cfg s i) need rs = true := by
    have hwen : (idPorts cfg s i).exeRegfileWen = true := hw
    have hdst : (idPorts cfg s i).exeDestAddr = rs := hrd
    have hval : (idPorts cfg s i).esValid = true := esWrites_valid hw
    simp [IdStage.exeRsHazard, hneed', hwen, hdst, hval, hrs]
  cases hpend : IdStage.exeForwardPending (idPorts cfg s i) with
  | false => rfl
  | true =>
      exfalso
      -- otherwise decode would have waited
      simp only [loadUseHazard, IdStage.loadUseHazard, IdStage.exeLoadUseHazard, hpend, hdv] at hhaz
      rcases hneed with ⟨hn, heq, hlive, hstack⟩ | ⟨hn, heq, hlive, hstack⟩
      · rw [heq, hwait _ hn, hlive, hstack] at hhaz
        simp at hhaz
      · rw [heq, hwait _ hn, hlive, hstack] at hhaz
        simp at hhaz

/-- The stack value buffer does not answer either. -/
theorem not_awaited (hfire : SkidBuffer.inFire s.es.buf (esWires cfg s i) = true)
    (hstack : ExeStage.exeStackLwHit s.es (exePorts cfg s i) = false) {rs : BitVec 5}
    (hrs : rs ≠ 0#5) (hw : esWrites cfg s i = true) (hrd : s.es.buf.main.bus.ctrl.rdAddr = rs)
    (hneed :
      (needRs1 (IdStage.idInst s.ds) = true ∧ rs1Addr (IdStage.idInst s.ds) = rs ∧
        IdStage.liveLwRs1 cfg s.ds (idPorts cfg s i) = false) ∨
      (needRs2 (IdStage.idInst s.ds) = true ∧ rs2Addr (IdStage.idInst s.ds) = rs ∧
        IdStage.liveLwRs2 cfg s.ds (idPorts cfg s i) = false)) :
    IdStage.exeForwardPending (idPorts cfg s i) = false := by
  have hhit : (idPorts cfg s i).exeStackLwHit = false := hstack
  have h1 : IdStage.stackLwRs1 s.ds (idPorts cfg s i) = false := by
    simp [IdStage.stackLwRs1, hhit]
  have h2 : IdStage.stackLwRs2 s.ds (idPorts cfg s i) = false := by
    simp [IdStage.stackLwRs2, hhit]
  refine not_awaited_of_plain hfire hrs hw hrd ?_
  rcases hneed with ⟨hn, heq, hlive⟩ | ⟨hn, heq, hlive⟩
  · exact Or.inl ⟨hn, heq, hlive, h1⟩
  · exact Or.inr ⟨hn, heq, hlive, h2⟩

/-- Of the bit manipulations on registers only `zext.h` ignores its second operand, and it names
`x0` there. -/
theorem rs2Addr_of_unary {x : Word} (hsel : aluSrc2ImmSel x = false)
    (h : (instBitmanAny x && !instBitmanRs2Inst x) = true) : rs2Addr x = 0#5 := by
  have himm : isBitmanImm x = false := by
    simp only [aluSrc2ImmSel, Bool.or_eq_false_iff] at hsel
    exact hsel.1.1
  simp only [Bool.and_eq_true, Bool.not_eq_true', instBitmanAny, instBitmanRs2Inst,
    instSextb, instSexth, instOrcb, instRev8, instBrev8, instZip, instUnzip, instBclri, instBexti,
    instBinvi, instCpop, himm, Bool.false_and, Bool.or_false] at h
  rcases h with ⟨hany, hno⟩
  simp only [Bool.or_eq_false_iff] at hno
  simp only [hno, Bool.false_or, Bool.or_false] at hany
  simp only [instZexth, Bool.and_eq_true, beq_iff_eq] at hany
  exact hany.2

/-! ## The payload that execute accepts -/

/-- The first operand of the instruction that execute accepts: zero, the pc, or a register. -/
theorem operand1_accepted (hf : usesF (IdStage.idInst s.ds) = false)
    (hstack : ExeStage.exeStackLwHit s.es (exePorts cfg s i) = false)
    (hfire : SkidBuffer.inFire s.es.buf (esWires cfg s i) = true) (hA : Ahead cfg s i ρ rdata)
    (huse : Datapath.uses1 (IdStage.idInst s.ds) = true) :
    ExeStage.argument cfg (IdStage.src1Fwd cfg s.ds (idPorts cfg s i))
        (ExeStage.exeResult cfg s.es (exePorts cfg s i)) (memResult s i)
        (IdStage.regSrc1 s.ds (idPorts cfg s i)) rdata =
      Datapath.operand1 (IdStage.idInst s.ds) s.ds.buf.main.bus.pc ρ := by
  rw [IdStage.src1Fwd, IdStage.regSrc1, instFlw_eq_false hf, instFsw_eq_false hf, src_eq.1,
    Datapath.operand1]
  cases hlui : instLui (IdStage.idInst s.ds) with
  | true => simp only [Bool.true_or, if_true, ExeStage.argument_unforwarded]; rfl
  | false =>
      cases hauipc : instAuipc (IdStage.idInst s.ds) with
      | true => simp only [Bool.or_true, if_true, ExeStage.argument_unforwarded]; rfl
      | false =>
          have hneed : needRs1 (IdStage.idInst s.ds) = true := by
            simpa [Datapath.uses1, hlui, hauipc] using huse
          exact argument_srcFwd hA liveSelect_rs1 fun hlive hrs hw hrd =>
            not_awaited hfire hstack hrs hw hrd (Or.inl ⟨hneed, rfl, hlive⟩)

/-- The second operand of the instruction that execute accepts: an index, an immediate, nothing, or a
register. -/
theorem operand2_accepted
    (hstack : ExeStage.exeStackLwHit s.es (exePorts cfg s i) = false)
    (hfire : SkidBuffer.inFire s.es.buf (esWires cfg s i) = true) (hA : Ahead cfg s i ρ rdata)
    (huse : Datapath.uses2 (IdStage.idInst s.ds) = true) :
    ExeStage.argument cfg (IdStage.src2Fwd cfg s.ds (idPorts cfg s i))
        (ExeStage.exeResult cfg s.es (exePorts cfg s i)) (memResult s i)
        (IdStage.regSrc2 s.ds (idPorts cfg s i)) rdata =
      Datapath.operand2 (IdStage.idInst s.ds) ρ := by
  rw [IdStage.src2Fwd, IdStage.regSrc2, src_eq.2, Datapath.operand2]
  cases hindex : instBitmanImmInst (IdStage.idInst s.ds) with
  | true =>
      simp only [Bool.or_true, Bool.true_or, if_true, ExeStage.argument_unforwarded]
  | false =>
      cases hsel : aluSrc2ImmSel (IdStage.idInst s.ds) with
      | true =>
          simp only [Bool.true_or, if_true, ExeStage.argument_unforwarded]
      | false =>
          cases hunary : (instBitmanAny (IdStage.idInst s.ds) &&
              !instBitmanRs2Inst (IdStage.idInst s.ds)) with
          | true =>
              simp only [Bool.or_true, if_true, ExeStage.argument_unforwarded,
                Bool.false_eq_true, if_false, rs2Addr_of_unary hsel hunary, hA.zero]
              rfl
          | false =>
              have hneed : needRs2 (IdStage.idInst s.ds) = true := by
                simpa [Datapath.uses2, hsel] using huse
              exact argument_srcFwd hA liveSelect_rs2 fun hlive hrs hw hrd =>
                not_awaited hfire hstack hrs hw hrd (Or.inr ⟨hneed, rfl, hlive⟩)

/-- An instruction that passes to execute carries the registers after the one in execute. -/
theorem carries_accepted (hword : IdStage.idInst s.ds = imem s.ds.buf.main.bus.pc)
    (hf : usesF (IdStage.idInst s.ds) = false)
    (hstack : ExeStage.exeStackLwHit s.es (exePorts cfg s i) = false)
    (hfire : SkidBuffer.inFire s.es.buf (esWires cfg s i) = true)
    (hA : Ahead cfg s i ρ rdata) : Carries cfg imem ρ rdata (esPayload cfg s i) := by
  have hhit : (idPorts cfg s i).exeStackLwHit = false := hstack
  refine { noStack1 := ?_, noStack2 := ?_, live := ?_, operands := ?_ }
  -- no load is answered from the stack value buffer
  · show IdStage.stackLwRs1 s.ds (idPorts cfg s i) = false
    simp [IdStage.stackLwRs1, hhit]
  · show IdStage.stackLwRs2 s.ds (idPorts cfg s i) = false
    simp [IdStage.stackLwRs2, hhit]
  -- only a plain ALU instruction is granted the live word
  · intro htakes
    show ordinaryIntAlu (imem s.ds.buf.main.bus.pc) = true
    rw [← hword]
    exact (@granted_of_takesLiveLoad cfg s i htakes).2
  · show Datapath.Operands (imem s.ds.buf.main.bus.pc) s.ds.buf.main.bus.pc ρ
      (ExeStage.argument cfg (IdStage.src1Fwd cfg s.ds (idPorts cfg s i))
        (ExeStage.exeResult cfg s.es (exePorts cfg s i)) (memResult s i)
        (IdStage.regSrc1 s.ds (idPorts cfg s i)) rdata)
      (ExeStage.argument cfg (IdStage.src2Fwd cfg s.ds (idPorts cfg s i))
        (ExeStage.exeResult cfg s.es (exePorts cfg s i)) (memResult s i)
        (IdStage.regSrc2 s.ds (idPorts cfg s i)) rdata)
    rw [← hword]
    constructor
    · intro huse
      exact operand1_accepted hf hstack hfire hA huse
    · intro huse
      exact operand2_accepted hstack hfire hA huse

end Cpu
end RiscvCpu
