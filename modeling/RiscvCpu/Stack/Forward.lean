import RiscvCpu.Pipeline.Squash
import RiscvCpu.Stack.Buffer

/-!
# Forward — the operands taken from the stack value buffer

An `LW` that hits the buffer in decode captures its entry one cycle later, from execute, by index
alone.  The word it captures is the one it loads as long as the entry still belongs to its address
then.  A partial store in execute stops the lookup and a full store to the same word updates the
entry, but a full store that takes the entry over for another address is not looked for: that is the
one case in which the consumer of the load gets a wrong operand.
-/

namespace RiscvCpu

open StackValueBuffer

namespace Decode

variable {x : Word}

/-- A load of the base instruction set is neither a store nor a multiplication nor a jump, and its
address is formed from the integer register `rs1` and the I-immediate. -/
theorem class_of_instLw (h : instLw x = true) :
    opcode x = 0b0000011#7 ∧ isMulInst x = false ∧ isBrJmpInst x = false ∧
      (exeResultSel x).exe = false ∧ isMemInst x = true ∧ memImm x = immIExt x := by
  have hop : opcode x = 0b0000011#7 := by
    simp only [instLw, isLoad, Bool.and_eq_true, beq_iff_eq] at h
    exact h.1
  have hreg : isOpReg x = false := by simp [isOpReg, hop]
  have himm : isOpImm x = false := by simp [isOpImm, hop]
  have hsys : isSystem x = false := by simp [isSystem, hop]
  have hf : usesF x = false := by
    simp [usesF, isFload, isFstore, isFmadd, isFmsub, isFnmsub, isFnmadd, isFpu, hop]
  have hmem : isMemInst x = true := by simp [isMemInst, isLoad, hop]
  refine ⟨hop, isMulInst_eq_false hreg, isBrJmpInst_of_isMemInst hmem, ?_, hmem, ?_⟩
  · simp [exeResultSel, isMulInst_eq_false hreg, isBitmanInst_eq_false hreg himm,
      isAluInst_eq_false hreg himm (by simp [isLui, hop]) (by simp [isAuipc, hop]),
      isFpuInst_eq_false hf, isCsrInst_eq_false hsys, isJal, isJalr, hop]
  · simp [memImm, imsValid, isStore, instFsw, isFstore, imiValid, isLoad, gate, hop]

/-- The load vector of an `LW` is matched by nothing else. -/
theorem instLw_of_memOp (hw : (memOp x).w = true) (hs : isStoreInst x = false) :
    instLw x = true := by
  simp only [isStoreInst, Bool.or_eq_false_iff] at hs
  simpa [memOp, instSw, hs] using hw

/-- `inst_lw` in execute is `inst_lw` in decode. -/
theorem instLw_of_es {r : ExeStage.Regs} (hx : Decoded x (ExeStage.bus r))
    (h : ExeStage.instLw r = true) : instLw x = true := by
  simp only [ExeStage.instLw, Bool.and_eq_true, Bool.not_eq_true'] at h
  apply instLw_of_memOp
  · rw [← hx.memOp]
    exact h.1
  · rw [← hx.isStore]
    exact h.2

theorem loadInstOf_of_instLw (h : instLw x = true) : loadInstOf x = LoadInst.LW := by
  have hop := (class_of_instLw h).1
  have hf3 : funct3 x = 0b010#3 := by
    simp only [instLw, f3_010, Bool.and_eq_true, beq_iff_eq] at h
    exact h.2
  simp [loadInstOf, memOp, h, instLb, instLh, instLbu, instLhu, f3_000, f3_001, f3_100, f3_101,
    hf3, instSb, instSh, isStore, isStoreInst, instFsw, instFlw, isFload, isFstore, hop,
    LoadInst.LW]

end Decode

namespace Cpu

variable {cfg : Config} {s : Cpu} {i : CpuIn}

/-! ## Stores in execute -/

theorem store_of_dmemWen (h : dmemWen cfg s i ≠ 0#4) :
    s.es.buf.main.bus.mem.memOp.any = true ∧ s.es.buf.main.bus.mem.isStore = true ∧
      esFlush cfg s i = false := by
  have hflush : ExeStage.esFlush s.es (exePorts cfg s i) = false := by
    by_contra hf
    have hf' : ExeStage.esFlush s.es (exePorts cfg s i) = true := by simpa using hf
    simp [dmemWen, ExeStage.dmemWen, hf'] at h
  have hst : ExeStage.instSb s.es = true ∨ ExeStage.instSh s.es = true ∨
      ExeStage.instSw s.es = true := by
    by_contra hn
    simp only [not_or, Bool.not_eq_true] at hn
    simp [dmemWen, ExeStage.dmemWen, hn] at h
  simp only [ExeStage.instSb, ExeStage.instSh, ExeStage.instSw, ExeStage.bus,
    Bool.and_eq_true] at hst
  refine ⟨?_, ?_, hflush⟩
  · rcases hst with h | h | h <;> simp [MemOp.any, h.1]
  · rcases hst with h | h | h <;> exact h.2

theorem dmemEn_parts (h : dmemEn cfg s i = true) :
    s.es.buf.valid = true ∧ s.es.buf.main.bus.mem.memOp.any = true ∧ esFlush cfg s i = false := by
  simp only [dmemEn, ExeStage.dmemEn, Bool.and_eq_true, Bool.not_eq_true'] at h
  exact ⟨h.1.1, h.1.2, h.2⟩

/-- What requests a word moves on in the same cycle. -/
theorem accept_of_dmemEn (hc : Control s) (h : dmemEn cfg s i = true) :
    ExeStage.memStageAccept s.es (exePorts cfg s i) = true := by
  rcases dmemEn_parts h with ⟨hv, hany, hflush⟩
  have hmul : s.es.buf.main.bus.ctrl.isMul = false := by
    cases hm : s.es.buf.main.bus.ctrl.isMul with
    | false => rfl
    | true => rw [memOp_none_of_isMul hc hm] at hany; cases hany
  have hready : ExeStage.esReadyGo s.es (exePorts cfg s i) = true := esReadyGo_of_not_isMul hmul
  have hallow : (exePorts cfg s i).msAllowin = true := hc.msAllowin
  have hflush' : ExeStage.esFlush s.es (exePorts cfg s i) = false := hflush
  simp [ExeStage.memStageAccept, ExeStage.esToMsValid, ExeStage.esValid, hv, hready, hallow,
    hflush']

theorem accept_parts (h : ExeStage.memStageAccept s.es (exePorts cfg s i) = true) :
    s.es.buf.valid = true ∧ esReadyGo cfg s i = true ∧ esFlush cfg s i = false := by
  simp only [ExeStage.memStageAccept, ExeStage.esToMsValid, Bool.and_eq_true,
    Bool.not_eq_true'] at h
  exact ⟨h.1.1.1, h.1.1.2, h.2⟩

/-- A store writes an entry only in the cycle in which the memory performs it. -/
theorem dmemEn_of_storeWrite (h : storeWrite s.stack (stackPorts cfg s i) = true) :
    dmemEn cfg s i = true := by
  simp only [storeWrite, stackPorts, ExeStage.stackStoreValid, Bool.and_eq_true, beq_iff_eq] at h
  have hwen : dmemWen cfg s i ≠ 0#4 := by
    rw [h.1.2]
    decide
  rcases accept_parts h.1.1.1.1 with ⟨hv, -, hflush⟩
  have hany := (store_of_dmemWen hwen).1
  have hflush' : ExeStage.esFlush s.es (exePorts cfg s i) = false := hflush
  simp [dmemEn, ExeStage.dmemEn, ExeStage.esValid, ExeStage.bus, hv, hany, hflush']

/-- Nothing is stored while execute stands still. -/
theorem storeValid_of_stalled (hc : Control s)
    (h : SkidBuffer.coreAllowin s.es.buf (esWires cfg s i) = false) :
    (stackPorts cfg s i).storeValid = false := by
  rcases es_stalled h hc with ⟨-, -, -, -, hready⟩
  by_contra hn
  have hst : ExeStage.stackStoreValid s.es (exePorts cfg s i) = true :=
    Bool.of_not_eq_false hn
  simp only [ExeStage.stackStoreValid, Bool.and_eq_true] at hst
  rw [(accept_parts hst.1.1).2.1] at hready
  cases hready

/-- Nothing is stored while the skid entry of execute is full. -/
theorem storeValid_of_esSkid (hc : Control s) (h : s.es.buf.skidValid = true) :
    (stackPorts cfg s i).storeValid = false := by
  have hmul := (hc.esStopped (hc.esWf.stopped h)).2.1
  rcases hc.esMain with ⟨x, hx⟩
  rw [hx.decoded.ctrl] at hmul
  have hop := Decode.opcode_of_isMulInst hmul
  have hstore : (ExeStage.bus s.es).mem.isStore = false := by
    show s.es.buf.main.bus.mem.isStore = false
    rw [hx.decoded.isStore]
    simp [Decode.isStoreInst, Decode.isStore, Decode.instFsw, Decode.instFlw, Decode.isFload,
      Decode.isFstore, hop]
  simp [stackPorts, ExeStage.stackStoreValid, hstore]

/-! ## The stack window -/

/-- `stack_dram_addr`. -/
def stackWindow : BitVec 14 := 0b10000000000100#14

/-- What the data memory holds after this cycle. -/
def nextDMem (cfg : Config) (s : Cpu) (i : CpuIn) (m : DMem) : DMem :=
  if dmemEn cfg s i then m.write (dmemAddr s) (dmemWen cfg s i) (dmemWdata s) else m

/-- The buffer keeps mirroring the data memory. -/
theorem coherent_next (hc : Control s) {m : DMem} (h : Coherent stackWindow s.stack m) :
    Coherent stackWindow (next cfg s i).stack (nextDMem cfg s i m) := by
  have hstack : (next cfg s i).stack = StackValueBuffer.next s.stack (stackPorts cfg s i) := rfl
  rw [hstack, nextDMem]
  by_cases hen : dmemEn cfg s i = true
  · rw [if_pos hen]
    by_cases hst : (stackPorts cfg s i).storeValid = true
    · have hwin : window (stackPorts cfg s i).storeAddr = stackWindow := by
        have hst' := hst
        simp only [stackPorts, ExeStage.stackStoreValid, ExeStage.stackDramAddr, Bool.and_eq_true,
          beq_iff_eq] at hst'
        exact hst'.2
      exact coherent_store (by omega) h hst hwin
    · have hnone : storeWrite s.stack (stackPorts cfg s i) = false := by
        simp [storeWrite, hst]
      by_cases hwen : dmemWen cfg s i = 0#4
      · rw [hwen, DMem.write_none]
        exact coherent_of_not_storeWrite h hnone
      · -- a store that the buffer is not shown is outside the window
        have hstore : (ExeStage.bus s.es).mem.isStore = true := (store_of_dmemWen hwen).2.1
        have hwin : window (dmemAddr s) ≠ stackWindow := by
          intro hwin
          apply hst
          have hdram : ExeStage.stackDramAddr s.es = true := beq_iff_eq.mpr hwin
          simp [stackPorts, ExeStage.stackStoreValid, accept_of_dmemEn hc hen, hstore, hdram]
        exact coherent_elsewhere (coherent_of_not_storeWrite h hnone) hwin
  · rw [if_neg hen]
    have hnone : storeWrite s.stack (stackPorts cfg s i) = false := by
      cases hw : storeWrite s.stack (stackPorts cfg s i) with
      | false => rfl
      | true => exact absurd (dmemEn_of_storeWrite hw) hen
    exact coherent_of_not_storeWrite h hnone

/-! ## Lookups -/

/-- The address the load in decode looks up. -/
def queryAddr (cfg : Config) (s : Cpu) (i : CpuIn) : Word :=
  IdStage.stackQueryAddr s.ds (idPorts cfg s i)

/-- The word passed to execute in this cycle is an `LW` that hit the buffer, and the store in
execute takes the entry it hit over for another address. -/
def replacedUnderLookup (cfg : Config) (s : Cpu) (i : CpuIn) : Bool :=
  let p := stackPorts cfg s i
  SkidBuffer.inFire s.es.buf (esWires cfg s i) && (dsToEsBus cfg s i).mem.stackLoadHit &&
  (p.storeValid && p.storeAllocate && index 4 p.storeAddr == index 4 (queryAddr cfg s i) &&
    tag 4 p.storeAddr != tag 4 (queryAddr cfg s i))

/-- If the packet is that of a load that hit the buffer, its address needs no forwarding, lies in the
stack window and still hits. -/
def LookedUp (stack : Regs 4) (b : DsToEsBus) : Prop :=
  b.mem.stackLoadHit = true →
    b.src.src1Fwd = 0b00#2 ∧ window (b.src.regSrc1 + b.mem.memImm) = stackWindow ∧
      tagHit stack (b.src.regSrc1 + b.mem.memImm) = true

/-- The parts of `stack_load_hit`. -/
theorem stackLoadHit_parts (h : (dsToEsBus cfg s i).mem.stackLoadHit = true) :
    Decode.instLw (IdStage.idInst s.ds) = true ∧
      IdStage.stackBaseReady s.ds (idPorts cfg s i) = true ∧
      ExeStage.exeStorePending s.es (exePorts cfg s i) = false ∧
      window (queryAddr cfg s i) = stackWindow ∧ tagHit s.stack (queryAddr cfg s i) = true := by
  simp only [dsToEsBus, IdStage.dsToEsBus, IdStage.memPacket, IdStage.stackLoadHit, stackQueryHit,
    queryHit, IdStage.stackQueryValid, Bool.and_eq_true, Bool.not_eq_true', beq_iff_eq] at h
  exact ⟨h.1.1.1.1.1.1.2, h.1.1.1.1.2, h.1.1.1.2, h.1.1.2, h.2.2⟩

/-- The base register of a load that looks the buffer up is not forwarded. -/
theorem src_of_stackLoadHit (h : (dsToEsBus cfg s i).mem.stackLoadHit = true) :
    (dsToEsBus cfg s i).src.src1Fwd = 0b00#2 ∧
      (dsToEsBus cfg s i).src.regSrc1 + (dsToEsBus cfg s i).mem.memImm = queryAddr cfg s i := by
  rcases stackLoadHit_parts h with ⟨hlw, hbase, -, -, -⟩
  rcases Decode.class_of_instLw hlw with ⟨hop, -, -, -, hmem, himm⟩
  -- a load is no ALU instruction, so its base is never the live word
  have hlive : IdStage.liveLwRs1 cfg s.ds (idPorts cfg s i) = false := by
    simp [IdStage.liveLwRs1, IdStage.ordinaryIntAluConsumer, hmem]
  simp only [IdStage.stackBaseReady, Bool.not_eq_true', Bool.or_eq_false_iff] at hbase
  rcases hbase with ⟨hexe, hms⟩
  -- and the query waited until nothing ahead writes the base
  have hexe' : ((idPorts cfg s i).exeRegfileWen &&
      ((idPorts cfg s i).exeDestAddr == Decode.rs1Addr (IdStage.idInst s.ds)) &&
      (idPorts cfg s i).esValid) = false := by
    rw [← hexe]
    cases (idPorts cfg s i).exeRegfileWen <;> cases (idPorts cfg s i).esValid <;> simp
  have hms' : ((idPorts cfg s i).memRegfileWen &&
      ((idPorts cfg s i).memDestAddr == Decode.rs1Addr (IdStage.idInst s.ds)) &&
      (idPorts cfg s i).msValid) = false := by
    rw [← hms]
    cases (idPorts cfg s i).memRegfileWen <;> cases (idPorts cfg s i).msValid <;> simp
  constructor
  · simp [dsToEsBus, IdStage.dsToEsBus, IdStage.srcPacket, IdStage.src1Fwd, IdStage.srcFwd, hlive,
      hexe', hms']
  · simp [dsToEsBus, IdStage.dsToEsBus, IdStage.srcPacket, IdStage.memPacket, IdStage.regSrc1,
      queryAddr, IdStage.stackQueryAddr, himm, Decode.instFlw, Decode.instFsw, Decode.isFload,
      Decode.isFstore, Decode.instLui, Decode.isLui, Decode.instAuipc, Decode.isAuipc, hop]

/-- The entry a load has hit survives the edge on which the load passes to execute, unless it is
replaced under the lookup. -/
theorem tagHit_next_of_lookup (hfire : SkidBuffer.inFire s.es.buf (esWires cfg s i) = true)
    (hok : replacedUnderLookup cfg s i = false)
    (h : (dsToEsBus cfg s i).mem.stackLoadHit = true) :
    tagHit (next cfg s i).stack (queryAddr cfg s i) = true := by
  rcases stackLoadHit_parts h with ⟨-, -, hpend, -, hhit⟩
  have hstack : (next cfg s i).stack = StackValueBuffer.next s.stack (stackPorts cfg s i) := rfl
  rw [hstack]
  by_cases hidx : index 4 (queryAddr cfg s i) = index 4 (stackPorts cfg s i).storeAddr
  · cases hwrite : storeWrite s.stack (stackPorts cfg s i) with
    | true =>
        rw [(next_of_storeWrite hwrite hidx).1, beq_iff_eq]
        by_contra htag
        simp only [storeWrite, Bool.and_eq_true, Bool.or_eq_true] at hwrite
        rcases hwrite.2 with halloc | hmatch
        · simp [replacedUnderLookup, hfire, h, hwrite.1.1, halloc, hidx, htag] at hok
        · -- two addresses that hit one entry carry one tag
          simp only [tagHit, hidx, Bool.and_eq_true, beq_iff_eq] at hhit hmatch
          exact htag (hmatch.2.symm.trans hhit.2)
    | false =>
        have hinv : storeInvalidate s.stack (stackPorts cfg s i) = false := by
          cases hinv : storeInvalidate s.stack (stackPorts cfg s i) with
          | false => rfl
          | true =>
              -- a partial store in execute stops the lookup
              simp only [storeInvalidate, stackPorts, ExeStage.stackStoreValid, Bool.and_eq_true,
                bne_iff_ne, ne_eq] at hinv
              rcases accept_parts hinv.1.1.1.1 with ⟨hv, -, hflush⟩
              have hv' : ExeStage.esValid s.es = true := hv
              have hflush' : ExeStage.esFlush s.es (exePorts cfg s i) = false := hflush
              have hpart : ExeStage.dmemWen s.es (exePorts cfg s i) ≠ 0b1111#4 := hinv.1.2
              simp [ExeStage.exeStorePending, hv', hflush', hinv.1.1.1.2, hpart] at hpend
        simpa [tagHit, StackValueBuffer.next, hwrite, hinv] using hhit
  · rw [(next_other hidx).1]
    exact hhit

/-- Entries stay while nothing is stored. -/
theorem lookedUp_idle {b : DsToEsBus} (hidle : (stackPorts cfg s i).storeValid = false)
    (h : LookedUp s.stack b) : LookedUp (next cfg s i).stack b := by
  intro hhit
  rcases h hhit with ⟨hfwd, hwin, htag⟩
  refine ⟨hfwd, hwin, ?_⟩
  exact (next_of_not_storeValid hidle).1.trans htag

/-- What passes to execute has been looked up. -/
theorem lookedUp_accepted (hfire : SkidBuffer.inFire s.es.buf (esWires cfg s i) = true)
    (hok : replacedUnderLookup cfg s i = false) :
    LookedUp (next cfg s i).stack (esPayload cfg s i).bus := by
  intro hhit
  have hhit' : (dsToEsBus cfg s i).mem.stackLoadHit = true := hhit
  rcases src_of_stackLoadHit hhit' with ⟨hfwd, haddr⟩
  have haddr' : (esPayload cfg s i).bus.src.regSrc1 + (esPayload cfg s i).bus.mem.memImm =
      queryAddr cfg s i := haddr
  rw [haddr']
  exact ⟨hfwd, (stackLoadHit_parts hhit').2.2.2.1, tagHit_next_of_lookup hfire hok hhit'⟩

end Cpu
end RiscvCpu
