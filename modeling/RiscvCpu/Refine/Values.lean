import RiscvCpu.Isa.Machine
import RiscvCpu.Refine.Classes

/-!
# Values — what one instruction computes, in the core and in the instruction set

The datapath of execute and the load unit of the memory stage as functions of the instruction word,
its pc and its two operands, and their agreement with the sequential machine on every word of the
encoding tables.
-/

namespace RiscvCpu

open Decode

/-! ## Word functions -/

namespace Isa

theorem amount_eq (b : Word) : (b.extractLsb' 0 5).toNat = amount b := by
  simp [amount, BitVec.extractLsb'_toNat]

/-- Counting bits one by one. -/
theorem foldl_bits (x : Word) (l : List Nat) (acc : Word) :
    l.foldl (fun acc i => acc + (BitVec.ofBool (x.getLsbD i)).setWidth 32) acc =
      acc + BitVec.ofNat 32 (l.countP fun n => x.getLsbD n) := by
  induction l generalizing acc with
  | nil => simp
  | cons n l ih =>
      rw [List.foldl_cons, ih, List.countP_cons]
      cases x.getLsbD n with
      | false => simp
      | true =>
          simp only [if_true]
          rw [BitVec.ofNat_add, BitVec.add_assoc, BitVec.add_comm (BitVec.ofNat 32 _)]
          rfl

theorem cpop32_eq (x : Word) : ExeStage.cpop32 x = cpop x := by
  rw [ExeStage.cpop32, foldl_bits, cpop, BitVec.zero_add]

theorem orByte_eq (b : BitVec 8) :
    ExeStage.orByte b = if b = 0#8 then 0x00#8 else 0xff#8 := by
  by_cases h : b = 0#8 <;> simp [ExeStage.orByte, h]

theorem flagWord_eq (b : Bool) : (BitVec.ofBool b).setWidth 32 = flag b := by
  cases b <;> rfl

end Isa

/-! ## Multiplication and division -/

/-- An operand of the multiplier, read as signed or as unsigned. -/
def extend (signed : Bool) (x : Word) : BitVec 64 :=
  if signed then x.signExtend 64 else x.setWidth 64

/-- The result asked for by a multiply/divide packet. -/
def MulPacket.value (m : MulPacket) (a b : Word) : Word :=
  if m.mulOp.mul then a * b
  else if m.mulOp.mulh then Isa.mulHigh (extend m.src1Signed a) (extend m.src2Signed b)
  else if m.mulOp.div then if m.src1Signed then Isa.div a b else Isa.divu a b
  else if m.src1Signed then Isa.rem a b else Isa.remu a b

/-! ## The datapath on an instruction word -/

namespace Datapath

/-- The first operand: zero, the pc, or the register `rs1`. -/
def operand1 (x pc : Word) (ρ : BitVec 5 → Word) : Word :=
  if instLui x then 0#32 else if instAuipc x then pc else ρ (rs1Addr x)

/-- The second operand: an immediate or the register `rs2`. -/
def operand2 (x : Word) (ρ : BitVec 5 → Word) : Word :=
  if instBitmanImmInst x then (rs2Addr x).setWidth 32
  else if aluSrc2ImmSel x then gate (imiValid x) (immIExt x) ||| gate (imuValid x) (immUExt x)
  else ρ (rs2Addr x)

/-- The instruction uses its first, or its second, operand. -/
def uses1 (x : Word) : Bool := needRs1 x || instLui x || instAuipc x
def uses2 (x : Word) : Bool := needRs2 x || aluSrc2ImmSel x

/-- `exe_result`. -/
def value (x pc a b : Word) : Word :=
  if isBitmanInst x then ExeStage.bitmanResult (bitmanOp x) a b
  else if isAluInst x then ExeStage.aluResult (aluOp x) a b
  else if isMemInst x then a + memImm x
  else if isMulInst x then (mulPacket x).value a b
  else pc + 4#32

/-- `br_taken` and `br_target`. -/
def taken (x a b : Word) : Bool :=
  isJal x || isJalr x || ((brJmpOpcode x).any && ExeStage.brCondRaw (brJmpOpcode x) a b)

def target (x pc a : Word) : Word :=
  if isJalr x then (a + brJmpImm x).extractLsb' 1 31 ++ 0#1 else pc + brJmpImm x

def nextPc (x pc a b : Word) : Word := if taken x a b then target x pc a else pc + 4#32

/-! ### The register-register operations -/

/-- `value` for the opcode `OP`, from the function fields. -/
def regValue (f7 : BitVec 7) (f3 : BitVec 3) (r2 : BitVec 5) (a b : Word) : Word :=
  if anyBitman (regBitman f7 f3 r2) then ExeStage.bitmanResult (regBitman f7 f3 r2) a b
  else if anyAlu (regAlu f7 f3) then ExeStage.aluResult (regAlu f7 f3) a b
  else (regMul f7 f3).value a b

theorem pack_zero (a : Word) : (a.extractLsb' 0 16).setWidth 32 = 0#16 ++ a.extractLsb' 0 16 := by
  apply BitVec.eq_of_getLsbD_eq
  intro n hn
  simp only [BitVec.getLsbD_setWidth, BitVec.getLsbD_append, BitVec.getLsbD_extractLsb']
  grind

/-- Every entry of the table computes its operation; `zext.h` is `pack` with a zero operand. -/
theorem regValue_eq (r2 : BitVec 5) (a b : Word) (hb : r2 = 0#5 → b = 0#32) :
    ∀ e ∈ Isa.regTable, regValue e.1.1 e.1.2 r2 a b = e.2.eval a b := by
  simp only [Isa.regTable, List.forall_mem_cons]
  refine ⟨?add, ?sub, ?sll, ?slt, ?sltu, ?xor, ?srl, ?sra, ?or, ?and, ?mul, ?mulh, ?mulhsu, ?mulhu,
    ?div, ?divu, ?rem, ?remu, ?sh1add, ?sh2add, ?sh3add, ?andn, ?orn, ?xnor, ?min, ?max, ?minu,
    ?maxu, ?pack, ?packh, ?bclr, ?bext, ?binv, ?bset, ?nil⟩
  -- shifts and bit indices take the low five bits of the operand
  case sll =>
    show a <<< (b.extractLsb' 0 5).toNat = a <<< Isa.amount b
    rw [Isa.amount_eq]
  case srl =>
    show a >>> (b.extractLsb' 0 5).toNat = a >>> Isa.amount b
    rw [Isa.amount_eq]
  case sra =>
    show a.sshiftRight (b.extractLsb' 0 5).toNat = a.sshiftRight (Isa.amount b)
    rw [Isa.amount_eq]
  case bext =>
    show (BitVec.ofBool (a.getLsbD (b.extractLsb' 0 5).toNat)).setWidth 32 =
      Isa.flag (a.getLsbD (Isa.amount b))
    rw [Isa.amount_eq, Isa.flagWord_eq]
  case pack =>
    -- with `x0` as second operand the core decodes `zext.h`
    by_cases h : r2 = 0#5
    · subst h
      rw [hb rfl]
      exact pack_zero a
    · have hne : (r2 == 0#5) = false := by simpa using h
      have hpack : regValue 0b0000100#7 0b100#3 r2 a b =
          b.extractLsb' 0 16 ++ a.extractLsb' 0 16 := by
        simp [regValue, regBitman, anyBitman, ExeStage.bitmanResult, hne, h]
      exact hpack
  case nil => simp
  all_goals rfl

/-- An entry is bit manipulation, arithmetic, or multiplication and division. -/
theorem regTable_class :
    ∀ e ∈ Isa.regTable, ∀ r2 : BitVec 5,
      (anyBitman (regBitman e.1.1 e.1.2 r2) || anyAlu (regAlu e.1.1 e.1.2) ||
        (e.1.1 == 0b0000001#7)) = true := by
  decide

theorem value_reg {x pc a b : Word} {o : Isa.RegOp} (hop : opcode x = 0b0110011#7)
    (ho : ((funct7 x, funct3 x), o) ∈ Isa.regTable) (hb : rs2Addr x = 0#5 → b = 0#32) :
    value x pc a b = o.eval a b := by
  have hclass := regTable_class _ ho (rs2Addr x)
  have hmem : isMemInst x = false := by
    simp [isMemInst, isLoad, isStore, instFlw, instFsw, isFload, isFstore, hop]
  have hmul := isMulInst_reg hop
  rw [← regValue_eq (rs2Addr x) a b hb _ ho, value, regValue, isBitmanInst_eq, isAluInst_eq,
    bitmanOp_reg hop, aluOp_reg hop, mulPacket_reg hop, hmem]
  split
  · rfl
  · split
    · rfl
    · rename_i hnb hna
      have h7 : isMulInst x = true := by
        rw [hmul]
        simpa [hnb, hna] using hclass
      simp [h7]

/-! ### The operations with an immediate -/

def immBitIndex (f7 : BitVec 7) (f3 : BitVec 3) (r2 : BitVec 5) : Bool :=
  (immBitman f7 r2 f3).bclri || (immBitman f7 r2 f3).bexti || (immBitman f7 r2 f3).binvi

/-- `imi_valid` for the opcode `OP-IMM`. -/
def immValid (f7 : BitVec 7) (f3 : BitVec 3) : Bool :=
  f3 == 0b000#3 || f3 == 0b010#3 || f3 == 0b011#3 || f3 == 0b100#3 || f3 == 0b110#3 ||
    f3 == 0b111#3 || (f3 == 0b001#3 && f7 == 0b0000000#7) ||
    (f3 == 0b101#3 && f7 == 0b0000000#7) || (f3 == 0b101#3 && f7 == 0b0100000#7)

theorem operand2_imm {x : Word} {ρ : BitVec 5 → Word} (hop : opcode x = 0b0010011#7) :
    operand2 x ρ =
      if immBitIndex (funct7 x) (funct3 x) (rs2Addr x) then (rs2Addr x).setWidth 32
      else gate (immValid (funct7 x) (funct3 x)) (immIExt x) := by
  have hindex : instBitmanImmInst x = immBitIndex (funct7 x) (funct3 x) (rs2Addr x) := by
    rw [immBitIndex, ← bitmanOp_imm hop]
    rfl
  have himm : imiValid x = immValid (funct7 x) (funct3 x) := by
    simp [imiValid, immValid, isLoad, instFlw, isFload, instJalr, isJalr, isOpImm, hop, instAddi,
      instSlti, instSltiu, instXori, instOri, instAndi, instSlli, instSrli, instSrai, f3_000,
      f3_001, f3_010, f3_011, f3_100, f3_101, f3_110, f3_111, f7_0000000, f7_0100000]
  have himu : imuValid x = false := by simp [imuValid, isLui, isAuipc, hop]
  have hsel : aluSrc2ImmSel x = true := by simp [aluSrc2ImmSel, isOpImm, hop]
  simp [operand2, hindex, himm, himu, hsel, gate]

/-- `value` for the opcode `OP-IMM`, from the function fields and the extended immediate. -/
def immValue (f7 : BitVec 7) (f3 : BitVec 3) (r2 : BitVec 5) (imm a : Word) : Word :=
  let b := if immBitIndex f7 f3 r2 then r2.setWidth 32 else gate (immValid f7 f3) imm
  if anyBitman (immBitman f7 r2 f3) then ExeStage.bitmanResult (immBitman f7 r2 f3) a b
  else ExeStage.aluResult (immAlu f7 f3) a b

theorem immValue_imm (f7 : BitVec 7) (r2 : BitVec 5) (imm a : Word) :
    ∀ e ∈ Isa.immTable, immValue f7 e.1 r2 imm a = e.2.eval a imm := by
  simp only [Isa.immTable, List.forall_mem_cons]
  refine ⟨?addi, ?slti, ?sltiu, ?xori, ?ori, ?andi, ?nil⟩
  case nil => simp
  all_goals rfl

theorem immValue_shamt (r2 : BitVec 5) (imm a : Word) (himm : imm.extractLsb' 0 5 = r2) :
    ∀ e ∈ Isa.shamtTable, immValue e.1.1 e.1.2 r2 imm a = e.2.eval a (r2.setWidth 32) := by
  have hamount : Isa.amount (r2.setWidth 32) = r2.toNat := by
    have h := r2.isLt
    simp [Isa.amount]
    omega
  have hlow : ((r2.setWidth 32).extractLsb' 0 5).toNat = r2.toNat := by
    rw [Isa.amount_eq, hamount]
  simp only [Isa.shamtTable, List.forall_mem_cons]
  refine ⟨?slli, ?srli, ?srai, ?bclri, ?bexti, ?binvi, ?nil⟩
  case slli =>
    show a <<< (imm.extractLsb' 0 5).toNat = a <<< Isa.amount (r2.setWidth 32)
    rw [himm, hamount]
  case srli =>
    show a >>> (imm.extractLsb' 0 5).toNat = a >>> Isa.amount (r2.setWidth 32)
    rw [himm, hamount]
  case srai =>
    show a.sshiftRight (imm.extractLsb' 0 5).toNat =
      a.sshiftRight (Isa.amount (r2.setWidth 32))
    rw [himm, hamount]
  case bexti =>
    show (BitVec.ofBool (a.getLsbD ((r2.setWidth 32).extractLsb' 0 5).toNat)).setWidth 32 =
      Isa.flag (a.getLsbD (Isa.amount (r2.setWidth 32)))
    rw [hlow, hamount, Isa.flagWord_eq]
  case nil => simp
  all_goals rfl

theorem immValue_unary (imm a : Word) :
    ∀ e ∈ Isa.unaryTable,
      immValue (e.1.1.extractLsb' 5 7) e.1.2 (e.1.1.extractLsb' 0 5) imm a =
        e.2.eval a 0#32 := by
  simp only [Isa.unaryTable, List.forall_mem_cons]
  refine ⟨?sextB, ?sextH, ?cpop, ?zip, ?unzip, ?orcB, ?rev8, ?brev8, ?nil⟩
  case cpop => exact Isa.cpop32_eq a
  case orcB =>
    show ExeStage.orByte (ExeStage.byteAt a 3) ++ ExeStage.orByte (ExeStage.byteAt a 2) ++
      ExeStage.orByte (ExeStage.byteAt a 1) ++ ExeStage.orByte (ExeStage.byteAt a 0) = Isa.orcB a
    simp only [Isa.orByte_eq]
    rfl
  case nil => simp
  all_goals rfl

/-- The opcode `OP-IMM` is bit manipulation or arithmetic on every entry of its tables. -/
theorem value_opImm {x pc a : Word} {ρ : BitVec 5 → Word} (hop : opcode x = 0b0010011#7)
    (hclass : (anyBitman (immBitman (funct7 x) (rs2Addr x) (funct3 x)) ||
      anyAlu (immAlu (funct7 x) (funct3 x))) = true) :
    value x pc a (operand2 x ρ) =
      immValue (funct7 x) (funct3 x) (rs2Addr x) (immIExt x) a := by
  rw [operand2_imm hop, value, immValue, isBitmanInst_eq, isAluInst_eq, bitmanOp_imm hop,
    aluOp_imm hop]
  split
  · rfl
  · rename_i hnb
    have halu : anyAlu (immAlu (funct7 x) (funct3 x)) = true := by simpa [hnb] using hclass
    rw [if_pos halu]

theorem immI_fields (x : Word) :
    (immIExt x).extractLsb' 0 5 = rs2Addr x ∧ funct7 x = (immI x).extractLsb' 5 7 ∧
      rs2Addr x = (immI x).extractLsb' 0 5 := by
  refine ⟨?_, ?_, ?_⟩
  · apply BitVec.eq_of_getLsbD_eq
    intro n hn
    have h1 : n < 32 := by omega
    have h2 : n < 12 := by omega
    simp [immIExt, immI, rs2Addr, BitVec.getElem_signExtend, hn, h1, h2]
  · apply BitVec.eq_of_getLsbD_eq
    intro n hn
    have h2 : 5 + n < 12 := by omega
    simp [immI, funct7, hn, h2, ← Nat.add_assoc]
  · apply BitVec.eq_of_getLsbD_eq
    intro n hn
    have h2 : n < 12 := by omega
    simp [immI, rs2Addr, hn, h2]

end Datapath
end RiscvCpu
