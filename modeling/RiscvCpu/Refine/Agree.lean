import RiscvCpu.Refine.Access

/-!
# Agree — every word of the encoding tables means the same on both sides

For a word that encodes an instruction, the core's next pc, register write and data request are those
of the sequential machine, given that the operands in use are the right ones.
-/

namespace RiscvCpu

open Decode

namespace Datapath

/-- The operands in use are those of the instruction `x` at `pc`, with registers `ρ`. -/
structure Operands (x pc : Word) (ρ : BitVec 5 → Word) (a b : Word) : Prop where
  first : uses1 x = true → a = operand1 x pc ρ
  second : uses2 x = true → b = operand2 x ρ

/-- The register and the value written, with the memory `mem` behind a load. -/
def result (x pc a b : Word) (mem : DMem) : Option (BitVec 5 × Word) :=
  if ctrlRegfileWen x then
    some (rdAddr x,
      if (exeResultSel x).exe then value x pc a b
      else loadValue (loadInstOf x) (a + memImm x) (mem (wordAddr (a + memImm x))))
  else none

/-- `dmem_wen` and `dmem_wdata`. -/
def wen (x addr : Word) : BitVec 4 :=
  if (memOp x).b && isStoreInst x then ExeStage.sbWen addr
  else if (memOp x).h && isStoreInst x then ExeStage.shWen addr
  else if (memOp x).w && isStoreInst x then 0b1111#4
  else 0b0000#4

def wdata (x b : Word) : Word :=
  if (memOp x).b && isStoreInst x then
    b.extractLsb' 0 8 ++ b.extractLsb' 0 8 ++ b.extractLsb' 0 8 ++ b.extractLsb' 0 8
  else if (memOp x).h && isStoreInst x then b.extractLsb' 0 16 ++ b.extractLsb' 0 16
  else b

/-- The data request. -/
def request (x a b : Word) : Option Isa.Request :=
  if (memOp x).any then
    some ⟨a + memImm x, wen x (a + memImm x),
      strobeWord (wen x (a + memImm x)) 0#32 (wdata x b)⟩
  else none

/-! ## Classes by opcode -/

/-- The class bits that a word without a computational opcode leaves low. -/
structure Plain (x : Word) : Prop where
  bitman : isBitmanInst x = false
  alu : isAluInst x = false
  mul : isMulInst x = false

theorem plain_of_opcode {x : Word} (hreg : isOpReg x = false) (himm : isOpImm x = false)
    (hlui : isLui x = false) (hauipc : isAuipc x = false) : Plain x :=
  { bitman := isBitmanInst_eq_false hreg himm
    alu := isAluInst_eq_false hreg himm hlui hauipc
    mul := isMulInst_eq_false hreg }

/-- The opcodes of the instruction set. -/
def isaOpcode (c : BitVec 7) : Bool :=
  c == 0b0110111#7 || c == 0b0010111#7 || c == 0b1101111#7 || c == 0b1100111#7 ||
    c == 0b1100011#7 || c == 0b0000011#7 || c == 0b0100011#7 || c == 0b0010011#7 ||
    c == 0b0110011#7 || c == 0b0001111#7

theorem isaOpcode_of_encodes {x : Word} {ins : Isa.Instr} (h : Isa.Encodes x ins) :
    isaOpcode (opcode x) = true := by
  cases h with
  | lui hop | auipc hop | jal hop | jalr hop | fence hop =>
      have hop' : opcode x = _ := hop
      simp [isaOpcode, hop']
  | branch _ hop _ | load _ hop _ | store _ hop _ | imm _ hop _ | shamt _ hop _ | unary _ hop _
  | op _ hop _ =>
      have hop' : opcode x = _ := hop
      simp [isaOpcode, hop']

/-- None of them is a floating-point or a system opcode. -/
theorem usesF_of_isaOpcode {x : Word} (h : isaOpcode (opcode x) = true) :
    usesF x = false ∧ isSystem x = false := by
  simp only [usesF, isFload, isFstore, isFmadd, isFmsub, isFnmsub, isFnmadd, isFpu, isSystem]
  revert h
  generalize opcode x = c
  revert c
  decide

theorem ctrlRegfileWen_eq {x : Word} (hx : isaOpcode (opcode x) = true) : ctrlRegfileWen x =
    (isAluInst x || isMulInst x || isLoad x || isJal x || isJalr x || isBitmanInst x) := by
  rcases usesF_of_isaOpcode hx with ⟨hf, hs⟩
  simp [ctrlRegfileWen, isFpuInst_eq_false hf, instFlw_eq_false hf, isCsrInst_eq_false hs]

theorem exeResultSel_exe_eq {x : Word} (hx : isaOpcode (opcode x) = true) :
    (exeResultSel x).exe =
      (isAluInst x || isMulInst x || isJal x || isJalr x || isBitmanInst x) := by
  rcases usesF_of_isaOpcode hx with ⟨hf, hs⟩
  simp [exeResultSel, isFpuInst_eq_false hf, isCsrInst_eq_false hs]

theorem nextPc_of_not_brJmp {x pc a b : Word} (h : isBrJmpInst x = false) :
    nextPc x pc a b = pc + 4#32 := by
  simp only [isBrJmpInst, Bool.or_eq_false_iff] at h
  simp [nextPc, taken, h, brJmpOpcode, BrJmpOpcode.any, instBeq, instBne, instBlt, instBge,
    instBltu, instBgeu]

theorem request_none {x a b : Word} (hx : isaOpcode (opcode x) = true) (hl : isLoad x = false)
    (hs : isStore x = false) : request x a b = none := by
  have hf := (usesF_of_isaOpcode hx).1
  simp [request, MemOp.any, memOp, instLb, instSb, instLh, instSh, instLw, instSw, instLbu,
    instLhu, instFlw_eq_false hf, instFsw_eq_false hf, hl, hs]

/-- The result of a class that execute computes. -/
theorem result_exe {x pc a b : Word} {mem : DMem} (hx : isaOpcode (opcode x) = true)
    (h : (isAluInst x || isMulInst x || isJal x || isJalr x || isBitmanInst x) = true) :
    result x pc a b mem = some (rdAddr x, value x pc a b) := by
  have hwen : ctrlRegfileWen x = true := by
    rw [ctrlRegfileWen_eq hx]
    revert h
    cases isAluInst x <;> cases isMulInst x <;> cases isJal x <;> cases isJalr x <;>
      cases isBitmanInst x <;> simp
  have hexe : (exeResultSel x).exe = true := by rw [exeResultSel_exe_eq hx, h]
  simp [result, hwen, hexe]

/-- The result of a class that writes no register. -/
theorem result_none {x pc a b : Word} {mem : DMem} (hx : isaOpcode (opcode x) = true)
    (hp : Plain x) (hl : isLoad x = false) (hjal : isJal x = false) (hjalr : isJalr x = false) :
    result x pc a b mem = none := by
  simp [result, ctrlRegfileWen_eq hx, hp.alu, hp.mul, hp.bitman, hl, hjal, hjalr]

/-! ## Agreement, one kind of instruction at a time -/

/-- What the core does with `x` is the outcome `e` of the sequential machine. -/
structure Agrees (x : Word) (σ : Isa.State) (a b : Word) (e : Isa.Outcome) : Prop where
  nextPc : nextPc x σ.pc a b = e.nextPc
  result : result x σ.pc a b σ.mem = e.result
  request : request x a b = e.request

variable {x : Word} {σ : Isa.State} {a b : Word}

/-! ### Upper immediates -/

/-- `LUI` and `AUIPC` add the immediate to their first operand. -/
theorem value_upper {pc : Word} (hop : opcode x = 0b0110111#7 ∨ opcode x = 0b0010111#7) :
    isAluInst x = true ∧ value x pc a b = a + b ∧
      ∀ ρ, operand2 x ρ = immUExt x := by
  have halu : aluOp x = ExeStage.AluOp.ADD := by
    rcases hop with hop | hop <;>
    simp [aluOp, ExeStage.AluOp.ADD, isOpReg, isOpImm, isLui, isAuipc, hop, instAdd, instAddi,
      instSub, instAnd, instAndi, instOr, instOri, instXor, instXori, instSll, instSlli, instSrl,
      instSrli, instSra, instSrai, instSlt, instSlti, instSltu, instSltiu, instLui, instAuipc]
  have hisAlu : isAluInst x = true := by rw [isAluInst_eq, halu]; rfl
  have hbit : isBitmanInst x = false := by
    rcases hop with hop | hop <;>
    exact isBitmanInst_eq_false (by simp [isOpReg, hop]) (by simp [isOpImm, hop])
  refine ⟨hisAlu, ?_, ?_⟩
  · simp only [value, hbit, hisAlu, halu, Bool.false_eq_true, if_false, if_true]
    rfl
  · intro ρ
    have hindex : instBitmanImmInst x = false := by
      rcases hop with hop | hop <;>
      simp [instBitmanImmInst, instBclri, instBexti, instBinvi, isBitmanImm, hop]
    have himi : imiValid x = false := by
      rcases hop with hop | hop <;>
      simp [imiValid, isLoad, isOpImm, instAddi, instSlti, instSltiu, instXori, instOri, instAndi,
        instSlli, instSrli, instSrai, instFlw, isFload, instJalr, isJalr, hop]
    rcases hop with hop | hop <;>
    simp [operand2, hindex, aluSrc2ImmSel, isOpImm, isLui, isAuipc, hop, gate, himi, imuValid]

theorem agrees_lui (hop : opcode x = 0b0110111#7) (hr : Operands x σ.pc σ.read a b) :
    Agrees x σ a b (Isa.outcome σ (.lui (Isa.rd x) (Isa.immU x))) := by
  have hx : isaOpcode (opcode x) = true := by rw [hop]; rfl
  rcases @value_upper x a b σ.pc (Or.inl hop) with ⟨halu, hval, hop2⟩
  have ha : a = 0#32 := by
    rw [hr.first (by simp [uses1, instLui, isLui, hop])]
    simp [operand1, instLui, isLui, hop]
  have hb : b = immUExt x := by
    rw [hr.second (by simp [uses2, aluSrc2ImmSel, isLui, hop]), hop2]
  refine ⟨?_, ?_, ?_⟩
  · rw [nextPc_of_not_brJmp (by simp [isBrJmpInst, isBranch, isJal, isJalr, hop])]
    rfl
  · rw [result_exe hx (by simp [halu]), hval, ha, hb, BitVec.zero_add]
    rfl
  · exact request_none hx (by simp [isLoad, hop]) (by simp [isStore, hop])

theorem agrees_auipc (hop : opcode x = 0b0010111#7) (hr : Operands x σ.pc σ.read a b) :
    Agrees x σ a b (Isa.outcome σ (.auipc (Isa.rd x) (Isa.immU x))) := by
  have hx : isaOpcode (opcode x) = true := by rw [hop]; rfl
  rcases @value_upper x a b σ.pc (Or.inr hop) with ⟨halu, hval, hop2⟩
  have ha : a = σ.pc := by
    rw [hr.first (by simp [uses1, instAuipc, isAuipc, hop])]
    simp [operand1, instLui, isLui, instAuipc, isAuipc, hop]
  have hb : b = immUExt x := by
    rw [hr.second (by simp [uses2, aluSrc2ImmSel, isAuipc, hop]), hop2]
  refine ⟨?_, ?_, ?_⟩
  · rw [nextPc_of_not_brJmp (by simp [isBrJmpInst, isBranch, isJal, isJalr, hop])]
    rfl
  · rw [result_exe hx (by simp [halu]), hval, ha, hb]
    rfl
  · exact request_none hx (by simp [isLoad, hop]) (by simp [isStore, hop])

/-! ### Jumps and branches -/

theorem plain_of_jump
    (hop : opcode x = 0b1101111#7 ∨ opcode x = 0b1100111#7 ∨ opcode x = 0b1100011#7) :
    isaOpcode (opcode x) = true ∧ Plain x ∧ isMemInst x = false ∧ isLoad x = false ∧
      isStore x = false := by
  rcases hop with hop | hop | hop <;>
  · refine ⟨by rw [hop]; rfl, ?_, ?_, ?_, ?_⟩
    · exact plain_of_opcode (by simp [isOpReg, hop]) (by simp [isOpImm, hop])
        (by simp [isLui, hop]) (by simp [isAuipc, hop])
    · simp [isMemInst, isLoad, isStore, instFlw, instFsw, isFload, isFstore, hop]
    · simp [isLoad, hop]
    · simp [isStore, hop]

theorem value_jump {pc : Word} (hp : Plain x) (hmem : isMemInst x = false) :
    value x pc a b = pc + 4#32 := by
  simp [value, hp.bitman, hp.alu, hp.mul, hmem]

theorem agrees_jal (hop : opcode x = 0b1101111#7) :
    Agrees x σ a b (Isa.outcome σ (.jal (Isa.rd x) (Isa.immJ x))) := by
  rcases plain_of_jump (Or.inl hop) with ⟨hx, hp, hmem, hl, hs⟩
  refine ⟨?_, ?_, request_none hx hl hs⟩
  · have himm : brJmpImm x = immJExt x := by
      simp [brJmpImm, gate, imbValid, isBranch, imjValid, isJal, isJalr, hop]
    simp only [nextPc, taken, target, isJal, isJalr, hop, himm]
    rfl
  · rw [result_exe hx (by simp [isJal, hop]), value_jump hp hmem]
    rfl

theorem agrees_jalr (hop : opcode x = 0b1100111#7) (hr : Operands x σ.pc σ.read a b) :
    Agrees x σ a b (Isa.outcome σ (.jalr (Isa.rd x) (Isa.rs1 x) (Isa.immI x))) := by
  rcases plain_of_jump (Or.inr (Or.inl hop)) with ⟨hx, hp, hmem, hl, hs⟩
  refine ⟨?_, ?_, request_none hx hl hs⟩
  · have himm : brJmpImm x = immIExt x := by
      simp [brJmpImm, gate, imbValid, isBranch, imjValid, isJal, isJalr, imiValid, instJalr, hop]
    have ha : a = σ.read (rs1Addr x) := by
      rw [hr.first (by simp [uses1, needRs1, instJalr, isJalr, hop])]
      simp [operand1, instLui, isLui, instAuipc, isAuipc, hop]
    simp only [nextPc, taken, target, isJal, isJalr, hop, himm, ha, pcJalr_eq]
    rfl
  · rw [result_exe hx (by simp [isJalr, hop]), value_jump hp hmem]
    rfl

theorem agrees_branch {c : Isa.Cond} (hop : opcode x = 0b1100011#7)
    (hc : (funct3 x, c) ∈ Isa.condTable) (hr : Operands x σ.pc σ.read a b) :
    Agrees x σ a b (Isa.outcome σ (.branch c (Isa.rs1 x) (Isa.rs2 x) (Isa.immB x))) := by
  rcases plain_of_jump (Or.inr (Or.inr hop)) with ⟨hx, hp, hmem, hl, hs⟩
  have hjal : isJal x = false := by simp [isJal, hop]
  have hjalr : isJalr x = false := by simp [isJalr, hop]
  refine ⟨?_, result_none hx hp hl hjal hjalr, request_none hx hl hs⟩
  have himm : brJmpImm x = immBExt x := by
    simp [brJmpImm, gate, imbValid, isBranch, imjValid, isJal, isJalr, hop]
  have hopc : brJmpOpcode x = branchOp (funct3 x) := by
    simp [brJmpOpcode, branchOp, instBeq, instBne, instBlt, instBge, instBltu, instBgeu, isBranch,
      f3_000, f3_001, f3_100, f3_101, f3_110, f3_111, hop]
  have ha : a = σ.read (rs1Addr x) := by
    rw [hr.first (by simp [uses1, needRs1, isBranch, hop])]
    simp [operand1, instLui, isLui, instAuipc, isAuipc, hop]
  have hb : b = σ.read (rs2Addr x) := by
    rw [hr.second (by simp [uses2, needRs2, isBranch, hop])]
    simp [operand2, instBitmanImmInst, instBclri, instBexti, instBinvi, isBitmanImm, aluSrc2ImmSel,
      isOpImm, isLui, isAuipc, hop]
  -- comparison by comparison, then taken or not
  have hcond := cond_agrees a b _ hc
  simp only [nextPc, taken, hjal, hjalr, Bool.false_or, hopc, hcond, target, himm,
    Bool.false_eq_true, if_false]
  rw [ha, hb]
  rfl

/-! ### Loads and stores -/

theorem plain_of_access (hop : opcode x = 0b0000011#7 ∨ opcode x = 0b0100011#7) :
    isaOpcode (opcode x) = true ∧ Plain x ∧ isBrJmpInst x = false ∧ isJal x = false ∧
      isJalr x = false := by
  rcases hop with hop | hop <;>
  · refine ⟨by rw [hop]; rfl, ?_, ?_, ?_, ?_⟩
    · exact plain_of_opcode (by simp [isOpReg, hop]) (by simp [isOpImm, hop])
        (by simp [isLui, hop]) (by simp [isAuipc, hop])
    · simp [isBrJmpInst, isBranch, isJal, isJalr, hop]
    · simp [isJal, hop]
    · simp [isJalr, hop]

/-- What decode makes of a load. -/
theorem load_decoded {o : Isa.LoadOp} (hop : opcode x = 0b0000011#7)
    (ho : (funct3 x, o) ∈ Isa.loadTable) :
    (memOp x).any = true ∧ isStoreInst x = false ∧ memImm x = immIExt x := by
  have hf3 : ∀ e ∈ Isa.loadTable,
      (e.1 == 0b000#3 || e.1 == 0b001#3 || e.1 == 0b010#3 || e.1 == 0b100#3 ||
        e.1 == 0b101#3) = true := by
    decide
  refine ⟨?_, ?_, ?_⟩
  · simpa [MemOp.any, memOp, instLb, instSb, instLh, instSh, instLw, instSw, instLbu, instLhu,
      instFlw, instFsw, isFload, isFstore, isLoad, isStore, hop, f3_000, f3_001, f3_010, f3_100,
      f3_101, or_assoc] using hf3 _ ho
  · simp [isStoreInst, isStore, instFsw, instFlw, isFload, isFstore, hop]
  · simp [memImm, imsValid, isStore, instFsw, isFstore, imiValid, isLoad, gate, hop]

/-- What decode makes of a word under the opcode `STORE`. -/
theorem memOp_store (hop : opcode x = 0b0100011#7) : memOp x =
    ⟨funct3 x == 0b000#3, funct3 x == 0b001#3, funct3 x == 0b010#3, false, false⟩ := by
  simp [memOp, instLb, instSb, instLh, instSh, instLw, instSw, instLbu, instLhu, instFlw, instFsw,
    isFload, isFstore, isLoad, isStore, hop, f3_000, f3_001, f3_010]

theorem memImm_store (hop : opcode x = 0b0100011#7) : memImm x = immSExt x := by
  simp [memImm, imsValid, isStore, imiValid, isLoad, gate, hop, isOpImm, instAddi, instSlti,
    instSltiu, instXori, instOri, instAndi, instSlli, instSrli, instSrai, instFlw, isFload,
    instJalr, isJalr]

theorem any_store {o : Isa.StoreOp} (hop : opcode x = 0b0100011#7)
    (ho : (funct3 x, o) ∈ Isa.storeTable) : (memOp x).any = true := by
  have hf3 : ∀ e ∈ Isa.storeTable,
      (e.1 == 0b000#3 || e.1 == 0b001#3 || e.1 == 0b010#3) = true := by
    decide
  simpa [MemOp.any, memOp_store hop] using hf3 _ ho

/-- Strobes and lanes depend on the function field alone. -/
theorem wen_store (hop : opcode x = 0b0100011#7) (addr : Word) :
    wen x addr = storeWen (funct3 x) addr := by
  have hstore : isStoreInst x = true := by simp [isStoreInst, isStore, hop]
  simp [wen, storeWen, memOp_store hop, hstore]

theorem wdata_store (hop : opcode x = 0b0100011#7) (w : Word) :
    wdata x w = storeData (funct3 x) w := by
  have hstore : isStoreInst x = true := by simp [isStoreInst, isStore, hop]
  simp [wdata, storeData, memOp_store hop, hstore]

theorem agrees_load {o : Isa.LoadOp} (hop : opcode x = 0b0000011#7)
    (ho : (funct3 x, o) ∈ Isa.loadTable) (hr : Operands x σ.pc σ.read a b)
    (hal : (σ.read (Isa.rs1 x) + Isa.immI x).toNat % o.size = 0) :
    Agrees x σ a b (Isa.outcome σ (.load o (Isa.rd x) (Isa.rs1 x) (Isa.immI x))) := by
  rcases plain_of_access (Or.inl hop) with ⟨hx, hp, hbr, hjal, hjalr⟩
  have hload : isLoad x = true := by simp [isLoad, hop]
  rcases load_decoded hop ho with ⟨hany, hstore, himm⟩
  -- only the base is a register
  have ha : a = σ.read (rs1Addr x) := by
    rw [hr.first (by simp [uses1, needRs1, isLoad, hop])]
    simp [operand1, instLui, isLui, instAuipc, isAuipc, hop]
  have haddr : a + memImm x = σ.read (Isa.rs1 x) + Isa.immI x := by rw [ha, himm]; rfl
  have hvec : loadInstOf x = loadVector (funct3 x) := loadInstOf_load hload
  -- next pc, register write, request
  refine ⟨?_, ?_, ?_⟩
  · rw [nextPc_of_not_brJmp hbr]
    rfl
  · have hexe : (exeResultSel x).exe = false := by
      simp [exeResultSel_exe_eq hx, hp.alu, hp.mul, hp.bitman, hjal, hjalr]
    have hwen : ctrlRegfileWen x = true := by simp [ctrlRegfileWen_eq hx, hload]
    have hval := load_agrees (σ.read (Isa.rs1 x) + Isa.immI x)
      (σ.mem (wordAddr (σ.read (Isa.rs1 x) + Isa.immI x))) _ ho hal
    simp only [result, hwen, hexe, if_true, Bool.false_eq_true, if_false, hvec, haddr]
    rw [hval]
    rfl
  · have hwen : wen x (a + memImm x) = 0#4 := by simp [wen, hstore]
    rw [request, if_pos hany, hwen, strobeWord_none, haddr]
    rfl

theorem agrees_store {o : Isa.StoreOp} (hop : opcode x = 0b0100011#7)
    (ho : (funct3 x, o) ∈ Isa.storeTable) (hr : Operands x σ.pc σ.read a b)
    (hal : (σ.read (Isa.rs1 x) + Isa.immS x).toNat % o.size = 0) :
    Agrees x σ a b (Isa.outcome σ (.store o (Isa.rs1 x) (Isa.rs2 x) (Isa.immS x))) := by
  rcases plain_of_access (Or.inr hop) with ⟨hx, hp, hbr, hjal, hjalr⟩
  have hload : isLoad x = false := by simp [isLoad, hop]
  -- both operands are registers
  have ha : a = σ.read (rs1Addr x) := by
    rw [hr.first (by simp [uses1, needRs1, isStore, hop])]
    simp [operand1, instLui, isLui, instAuipc, isAuipc, hop]
  have hb : b = σ.read (rs2Addr x) := by
    rw [hr.second (by simp [uses2, needRs2, isStore, hop])]
    simp [operand2, instBitmanImmInst, instBclri, instBexti, instBinvi, isBitmanImm, aluSrc2ImmSel,
      isOpImm, isLui, isAuipc, hop]
  have haddr : a + memImm x = σ.read (Isa.rs1 x) + Isa.immS x := by
    rw [ha, memImm_store hop]
    rfl
  refine ⟨?_, result_none hx hp hload hjal hjalr, ?_⟩
  · rw [nextPc_of_not_brJmp hbr]
    rfl
  · rcases store_agrees (σ.read (Isa.rs1 x) + Isa.immS x) b _ ho hal with ⟨hstrobes, hlanes⟩
    rw [request, if_pos (any_store hop ho), wen_store hop, wdata_store hop, haddr, hlanes, hstrobes,
      hb]
    rfl

/-! ### Operations -/

theorem agrees_op {o : Isa.RegOp} (hop : opcode x = 0b0110011#7)
    (ho : ((funct7 x, funct3 x), o) ∈ Isa.regTable) (hr : Operands x σ.pc σ.read a b) :
    Agrees x σ a b (Isa.outcome σ (.op o (Isa.rd x) (Isa.rs1 x) (Isa.rs2 x))) := by
  have hx : isaOpcode (opcode x) = true := by rw [hop]; rfl
  have hclass := regTable_class _ ho (rs2Addr x)
  rw [← bitmanOp_reg hop, ← aluOp_reg hop, ← isBitmanInst_eq, ← isAluInst_eq,
    ← isMulInst_reg hop] at hclass
  have ha : a = σ.read (rs1Addr x) := by
    rw [hr.first (by simp [uses1, needRs1, isOpReg, hop])]
    simp [operand1, instLui, isLui, instAuipc, isAuipc, hop]
  have hb : b = σ.read (rs2Addr x) := by
    rw [hr.second (by simp [uses2, needRs2, isOpReg, hop])]
    simp [operand2, instBitmanImmInst, instBclri, instBexti, instBinvi, isBitmanImm, aluSrc2ImmSel,
      isOpImm, isLui, isAuipc, hop]
  have hzero : rs2Addr x = 0#5 → b = 0#32 := by
    intro h0
    rw [hb, h0]
    rfl
  refine ⟨?_, ?_, request_none hx (by simp [isLoad, hop]) (by simp [isStore, hop])⟩
  · rw [nextPc_of_not_brJmp (by simp [isBrJmpInst, isBranch, isJal, isJalr, hop])]
    rfl
  · have hexe : (isAluInst x || isMulInst x || isJal x || isJalr x || isBitmanInst x) = true := by
      revert hclass
      cases isAluInst x <;> cases isMulInst x <;> cases isBitmanInst x <;> simp
    rw [result_exe hx hexe, value_reg hop ho hzero, ha, hb]
    rfl

/-- An entry of a table of `OP-IMM` that computes `v`. -/
theorem agrees_opImm {o : Isa.ImmOp} {imm : Word} (hop : opcode x = 0b0010011#7)
    (hr : Operands x σ.pc σ.read a b)
    (hclass : (anyBitman (immBitman (funct7 x) (rs2Addr x) (funct3 x)) ||
      anyAlu (immAlu (funct7 x) (funct3 x))) = true)
    (hval : ∀ c, immValue (funct7 x) (funct3 x) (rs2Addr x) (immIExt x) c = o.eval c imm) :
    Agrees x σ a b (Isa.outcome σ (.opImm o (Isa.rd x) (Isa.rs1 x) imm)) := by
  have hx : isaOpcode (opcode x) = true := by rw [hop]; rfl
  have ha : a = σ.read (rs1Addr x) := by
    rw [hr.first (by simp [uses1, needRs1, isOpImm, hop])]
    simp [operand1, instLui, isLui, instAuipc, isAuipc, hop]
  have hb : b = operand2 x σ.read := hr.second (by simp [uses2, aluSrc2ImmSel, isOpImm, hop])
  refine ⟨?_, ?_, request_none hx (by simp [isLoad, hop]) (by simp [isStore, hop])⟩
  · rw [nextPc_of_not_brJmp (by simp [isBrJmpInst, isBranch, isJal, isJalr, hop])]
    rfl
  · have hexe : (isAluInst x || isMulInst x || isJal x || isJalr x || isBitmanInst x) = true := by
      rw [← bitmanOp_imm hop, ← aluOp_imm hop, ← isBitmanInst_eq, ← isAluInst_eq] at hclass
      revert hclass
      cases isAluInst x <;> cases isBitmanInst x <;> simp
    rw [result_exe hx hexe, hb, value_opImm hop hclass, hval, ha]
    rfl

theorem immTable_class :
    ∀ e ∈ Isa.immTable, ∀ f7 : BitVec 7, anyAlu (immAlu f7 e.1) = true := by
  decide

theorem shamtTable_class :
    ∀ e ∈ Isa.shamtTable, ∀ r2 : BitVec 5,
      (anyBitman (immBitman e.1.1 r2 e.1.2) || anyAlu (immAlu e.1.1 e.1.2)) = true := by
  decide

theorem unaryTable_class :
    ∀ e ∈ Isa.unaryTable,
      anyBitman (immBitman (e.1.1.extractLsb' 5 7) (e.1.1.extractLsb' 0 5) e.1.2) = true := by
  decide

theorem agrees_fence (hop : opcode x = 0b0001111#7) :
    Agrees x σ a b (Isa.outcome σ .fence) := by
  have hx : isaOpcode (opcode x) = true := by rw [hop]; rfl
  have hl : isLoad x = false := by simp [isLoad, hop]
  have hp : Plain x := plain_of_opcode (by simp [isOpReg, hop]) (by simp [isOpImm, hop])
    (by simp [isLui, hop]) (by simp [isAuipc, hop])
  refine ⟨?_, result_none hx hp hl (by simp [isJal, hop]) (by simp [isJalr, hop]),
    request_none hx hl (by simp [isStore, hop])⟩
  rw [nextPc_of_not_brJmp (by simp [isBrJmpInst, isBranch, isJal, isJalr, hop])]
  rfl

/-! ## Agreement -/

/-- On every encoded word, with the right operands and an aligned address, the core does what the
instruction set says. -/
theorem agrees_of_encodes {ins : Isa.Instr} (h : Isa.Encodes x ins) (hal : ins.aligned σ)
    (hr : Operands x σ.pc σ.read a b) : Agrees x σ a b (Isa.outcome σ ins) := by
  -- one case for each way of encoding
  cases h with
  | lui hop => exact agrees_lui hop hr
  | auipc hop => exact agrees_auipc hop hr
  | jal hop => exact agrees_jal hop
  | jalr hop => exact agrees_jalr hop hr
  | branch c hop hc => exact agrees_branch hop hc hr
  | load o hop ho => exact agrees_load hop ho hr hal
  | store o hop ho => exact agrees_store hop ho hr hal
  | imm o hop ho =>
      refine agrees_opImm hop hr ?_ fun c =>
        immValue_imm (funct7 x) (rs2Addr x) (immIExt x) c (funct3 x, o) ho
      rw [immTable_class (funct3 x, o) ho (funct7 x), Bool.or_true]
  | shamt o hop ho =>
      have hval (c : Word) := immValue_shamt (rs2Addr x) (immIExt x) c (immI_fields x).1
        ((funct7 x, funct3 x), o) ho
      exact agrees_opImm hop hr (shamtTable_class ((funct7 x, funct3 x), o) ho (rs2Addr x)) hval
  | unary o hop ho =>
      rcases immI_fields x with ⟨-, h7, h2⟩
      have hany := unaryTable_class ((immI x, funct3 x), o) ho
      have hval (c : Word) := immValue_unary (immIExt x) c ((immI x, funct3 x), o) ho
      simp only [← h7, ← h2] at hany hval
      refine agrees_opImm hop hr ?_ hval
      rw [hany, Bool.true_or]
  | op o hop ho => exact agrees_op hop ho hr
  | fence hop => exact agrees_fence hop

end Datapath
end RiscvCpu
