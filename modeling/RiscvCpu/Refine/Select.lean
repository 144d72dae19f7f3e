import RiscvCpu.Lib.UniqueCase
import RiscvCpu.Refine.Classes

/-!
# Select — the one-hot selects behind an instruction word

The four `unique case (1'b1)` that a decoded word feeds, read arm by arm, and the words for which no
two of their selectors are high.
-/

namespace RiscvCpu
namespace Select

open Decode
open UniqueCase (AtMostOne first parallel)

/-! ## The selects -/

def bitmanArms (op : BitmanOp) (a b : Word) : List (UniqueCase.Arm 32) :=
  let bitIdx := b.extractLsb' 0 5
  let bitMask := 1#32 <<< bitIdx
  [(op.sh1add, (a <<< 1) + b), (op.sh2add, (a <<< 2) + b), (op.sh3add, (a <<< 3) + b),
    (op.andn, a &&& ~~~b), (op.orn, a ||| ~~~b), (op.xnor, ~~~(a ^^^ b)),
    (op.min, if a.slt b then a else b), (op.max, if a.slt b then b else a),
    (op.minu, if a.ult b then a else b), (op.maxu, if a.ult b then b else a),
    (op.sextb, (a.extractLsb' 0 8).signExtend 32), (op.sexth, (a.extractLsb' 0 16).signExtend 32),
    (op.zexth, (a.extractLsb' 0 16).setWidth 32),
    (op.orcb, ExeStage.orByte (ExeStage.byteAt a 3) ++ ExeStage.orByte (ExeStage.byteAt a 2) ++
      ExeStage.orByte (ExeStage.byteAt a 1) ++ ExeStage.orByte (ExeStage.byteAt a 0)),
    (op.rev8, ExeStage.byteAt a 0 ++ ExeStage.byteAt a 1 ++ ExeStage.byteAt a 2 ++
      ExeStage.byteAt a 3),
    (op.brev8, ExeStage.reverse8 (ExeStage.byteAt a 3) ++ ExeStage.reverse8 (ExeStage.byteAt a 2) ++
      ExeStage.reverse8 (ExeStage.byteAt a 1) ++ ExeStage.reverse8 (ExeStage.byteAt a 0)),
    (op.pack, b.extractLsb' 0 16 ++ a.extractLsb' 0 16),
    (op.packh, 0#16 ++ ExeStage.byteAt b 0 ++ ExeStage.byteAt a 0),
    (op.zip, ExeStage.zip32 a), (op.unzip, ExeStage.unzip32 a),
    (op.bclr, a &&& ~~~bitMask), (op.bclri, a &&& ~~~bitMask),
    (op.bext, (BitVec.ofBool (a.getLsbD bitIdx.toNat)).setWidth 32),
    (op.bexti, (BitVec.ofBool (a.getLsbD bitIdx.toNat)).setWidth 32),
    (op.binv, a ^^^ bitMask), (op.binvi, a ^^^ bitMask),
    (op.bset, a ||| bitMask), (op.cpop, ExeStage.cpop32 a)]

def mulArms (b : Mul.Build) (r : Mul.Regs) (p : Mul.Ports) : List (UniqueCase.Arm 32) :=
  [(p.mulOp.mul, r.pipe.result), (p.mulOp.mulh, r.pipe.result),
    (p.mulOp.div,
      if Mul.s1 p && (r.divState == 0b11#2) then ~~~Mul.quotientWord b r.doutTdataReg + 1#32
      else Mul.quotientWord b r.divResult),
    (p.mulOp.rem,
      if Mul.s2 p && (r.divState == 0b11#2) then ~~~Mul.remainderWord b r.doutTdataReg + 1#32
      else Mul.remainderWord b r.divResult)]

/-- The result select of execute, with the results of its two inner selects. -/
def classArms (cfg : Config) (r : ExeStage.Regs) (p : ExeStage.Ports) (bitman mul : Word) :
    List (UniqueCase.Arm 32) :=
  let c := (ExeStage.bus r).ctrl
  [(c.isBitman, bitman),
    (c.isAlu,
      ExeStage.aluResult (ExeStage.bus r).aluOp (ExeStage.aluSrc1 cfg r p)
        (ExeStage.aluSrc2 cfg r p)),
    (c.isFpu, ExeStage.fpuResult), (c.isMem, ExeStage.dmemAddr r), (c.isMul, mul),
    (c.isCsr, ExeStage.csrData r)]

def storeArms (r : ExeStage.Regs) : List (UniqueCase.Arm 4) :=
  [(ExeStage.instSb r, ExeStage.sbWen (ExeStage.dmemAddr r)),
    (ExeStage.instSh r, ExeStage.shWen (ExeStage.dmemAddr r)), (ExeStage.instSw r, 0b1111#4)]

/-! ### The code reads the first selected arm -/

theorem bitmanResult_eq (op : BitmanOp) (a b : Word) :
    ExeStage.bitmanResult op a b = first (bitmanArms op a b) 0#32 := by
  simp only [ExeStage.bitmanResult, bitmanArms, first, Bool.or_eq_true, ite_or]

theorem mulResult_eq (b : Mul.Build) (r : Mul.Regs) (p : Mul.Ports) :
    Mul.mulResult b r p = first (mulArms b r p) 0#32 := rfl

theorem exeResult_eq (cfg : Config) (r : ExeStage.Regs) (p : ExeStage.Ports) :
    ExeStage.exeResult cfg r p =
      if ExeStage.esFlush r p then 0#32
      else first (classArms cfg r p
          (ExeStage.bitmanResult (ExeStage.bus r).bitmanOp (ExeStage.src1Base r)
            (ExeStage.src2Base r)) (ExeStage.mulResult r p))
        ((ExeStage.bus r).ctrl.pc + 4#32) := rfl

theorem dmemWen_eq (r : ExeStage.Regs) (p : ExeStage.Ports) :
    ExeStage.dmemWen r p =
      if ExeStage.esFlush r p then 0b0000#4 else first (storeArms r) 0b0000#4 := rfl

/-! ### The parallel reading -/

def bitmanParallel (op : BitmanOp) (a b : Word) : Word := parallel (bitmanArms op a b) 0#32

def mulParallel (r : ExeStage.Regs) (p : ExeStage.Ports) : Word :=
  parallel (mulArms Mul.Build.core r.mul (ExeStage.mulPorts r p)) 0#32

/-- `exe_result` with all three of its selects read in parallel. -/
def exeParallel (cfg : Config) (r : ExeStage.Regs) (p : ExeStage.Ports) : Word :=
  if ExeStage.esFlush r p then 0#32
  else parallel (classArms cfg r p
      (bitmanParallel (ExeStage.bus r).bitmanOp (ExeStage.src1Base r) (ExeStage.src2Base r))
      (mulParallel r p))
    ((ExeStage.bus r).ctrl.pc + 4#32)

def wenParallel (r : ExeStage.Regs) (p : ExeStage.Ports) : BitVec 4 :=
  if ExeStage.esFlush r p then 0b0000#4 else parallel (storeArms r) 0b0000#4

/-! ## The selectors of a word -/

def bitmanSelectors (o : BitmanOp) : List Bool :=
  [o.sh1add, o.sh2add, o.sh3add, o.andn, o.orn, o.xnor, o.min, o.max, o.minu, o.maxu, o.sextb,
    o.sexth, o.zexth, o.orcb, o.rev8, o.brev8, o.pack, o.packh, o.zip, o.unzip, o.bclr, o.bclri,
    o.bext, o.bexti, o.binv, o.binvi, o.bset, o.cpop]

def classSelectors (x : Word) : List Bool :=
  [isBitmanInst x, isAluInst x, isFpuInst x, isMemInst x, isMulInst x, isCsrInst x]

def storeSelectors (x : Word) : List Bool :=
  [(memOp x).b && isStoreInst x, (memOp x).h && isStoreInst x, (memOp x).w && isStoreInst x]

def mulSelectors (o : MulOp) : List Bool := [o.mul, o.mulh, o.div, o.rem]

/-- No select behind the word has two selectors high. -/
structure Exclusive (x : Word) : Prop where
  bitman : AtMostOne (bitmanSelectors (bitmanOp x))
  result : AtMostOne (classSelectors x)
  store : AtMostOne (storeSelectors x)
  mul : AtMostOne (mulSelectors (mulPacket x).mulOp)

/-- Both readings give the same value and the same strobes for the word, whatever its operands and
the state around it. -/
def SameReadings (x : Word) : Prop :=
  ∀ (cfg : Config) (r : ExeStage.Regs) (p : ExeStage.Ports), Decoded x (ExeStage.bus r) →
    exeParallel cfg r p = ExeStage.exeResult cfg r p ∧ wenParallel r p = ExeStage.dmemWen r p

theorem sameReadings_of_exclusive {x : Word} (h : Exclusive x) : SameReadings x := by
  intro cfg r p hd
  have hbitman : ∀ a b, bitmanParallel (ExeStage.bus r).bitmanOp a b =
      ExeStage.bitmanResult (ExeStage.bus r).bitmanOp a b := by
    intro a b
    rw [bitmanResult_eq, hd.bitmanOp]
    exact UniqueCase.parallel_eq_first _ _ h.bitman
  have hmul : mulParallel r p = ExeStage.mulResult r p := by
    refine UniqueCase.parallel_eq_first _ _ ?_
    have hop : (ExeStage.mulPorts r p).mulOp = (mulPacket x).mulOp := by
      rw [← hd.mul]
      rfl
    simpa [mulArms, mulSelectors, hop] using h.mul
  constructor
  · rw [exeParallel, exeResult_eq, hbitman, hmul]
    have hclass : AtMostOne ((classArms cfg r p
        (ExeStage.bitmanResult (ExeStage.bus r).bitmanOp (ExeStage.src1Base r)
          (ExeStage.src2Base r)) (ExeStage.mulResult r p)).map Prod.fst) := by
      show AtMostOne [(ExeStage.bus r).ctrl.isBitman, (ExeStage.bus r).ctrl.isAlu,
        (ExeStage.bus r).ctrl.isFpu, (ExeStage.bus r).ctrl.isMem, (ExeStage.bus r).ctrl.isMul,
        (ExeStage.bus r).ctrl.isCsr]
      rw [hd.ctrl]
      exact h.result
    rw [UniqueCase.parallel_eq_first _ _ hclass]
  · rw [wenParallel, dmemWen_eq]
    have hstore : AtMostOne ((storeArms r).map Prod.fst) := by
      simp only [storeArms, ExeStage.instSb, ExeStage.instSh, ExeStage.instSw, hd.memOp, hd.isStore]
      exact h.store
    rw [UniqueCase.parallel_eq_first _ _ hstore]

/-! ## The words whose selectors are exclusive -/

theorem atMostOne_regBitman (f7 : BitVec 7) (f3 : BitVec 3) (r2 : BitVec 5) :
    AtMostOne (bitmanSelectors (regBitman f7 f3 r2)) := by
  simp only [bitmanSelectors, regBitman, bne]
  -- only `zext.h` and `pack` look at `rs2`, and only at its being zero
  generalize (r2 == 0#5) = z
  by_cases h : f7 = 0b0010000#7 ∨ f7 = 0b0100000#7 ∨ f7 = 0b0000101#7 ∨ f7 = 0b0000100#7 ∨
      f7 = 0b0100100#7 ∨ f7 = 0b0110100#7 ∨ f7 = 0b0010100#7
  · rcases h with rfl | rfl | rfl | rfl | rfl | rfl | rfl <;> revert f3 z <;> decide
  · simp only [not_or] at h
    simp [h, AtMostOne]

/-- With an immediate, the one overlap is that of the sign extensions with `cpop`. -/
theorem atMostOne_immBitman_iff (f7 : BitVec 7) (f3 : BitVec 3) (r2 : BitVec 5) :
    AtMostOne (bitmanSelectors (immBitman f7 r2 f3)) ↔
      ((immBitman f7 r2 f3).sextb || (immBitman f7 r2 f3).sexth) = false := by
  by_cases h3 : f3 = 0b001#3 ∨ f3 = 0b101#3
  · by_cases h : f7 = 0b0110000#7 ∨ f7 = 0b0010100#7 ∨ f7 = 0b0110100#7 ∨ f7 = 0b0000100#7 ∨
        f7 = 0b0100100#7
    · rcases h3 with rfl | rfl <;> rcases h with rfl | rfl | rfl | rfl | rfl <;> revert r2 <;>
        decide
    · simp only [not_or] at h
      simp [bitmanSelectors, immBitman, AtMostOne, h]
  · simp only [not_or] at h3
    simp [bitmanSelectors, immBitman, AtMostOne, h3]

theorem bitman_exclusive_iff (x : Word) :
    AtMostOne (bitmanSelectors (bitmanOp x)) ↔ (instSextb x || instSexth x) = false := by
  have hsext : (instSextb x || instSexth x) = ((bitmanOp x).sextb || (bitmanOp x).sexth) := rfl
  rw [hsext]
  by_cases hreg : opcode x = 0b0110011#7
  · rw [bitmanOp_reg hreg]
    constructor
    · intro _
      rfl
    · intro _
      exact atMostOne_regBitman _ _ _
  · by_cases himm : opcode x = 0b0010011#7
    · rw [bitmanOp_imm himm]
      exact atMostOne_immBitman_iff _ _ _
    · have hreg' : isBitman x = false := by simpa [isBitman] using hreg
      have himm' : isBitmanImm x = false := by simpa [isBitmanImm] using himm
      simp [bitmanSelectors, AtMostOne, bitmanOp, instSh1add, instSh2add, instSh3add, instAndn,
        instOrn, instXnor, instMin, instMax, instMinu, instMaxu, instSextb, instSexth, instZexth,
        instOrcb, instRev8, instBrev8, instPack, instPackh, instZip, instUnzip, instBclr, instBclri,
        instBext, instBexti, instBinv, instBinvi, instBset, instCpop, hreg', himm']

/-! ### The other three selects -/

theorem regBitman_alone {f7 : BitVec 7} {f3 : BitVec 3} {r2 : BitVec 5}
    (h : anyBitman (regBitman f7 f3 r2) = true) :
    anyAlu (regAlu f7 f3) = false ∧ (f7 == 0b0000001#7) = false := by
  simp only [anyBitman, regBitman, Bool.or_eq_true, Bool.and_eq_true, beq_iff_eq,
    Bool.false_eq_true, or_false, or_assoc] at h
  rcases h with h | h | h | h | h | h | h | h | h | h | h | h | h | h | h | h | h <;>
    simp [anyAlu, regAlu, h]

theorem immBitman_alone {f7 : BitVec 7} {f3 : BitVec 3} {r2 : BitVec 5}
    (h : anyBitman (immBitman f7 r2 f3) = true) : anyAlu (immAlu f7 f3) = false := by
  simp only [anyBitman, immBitman, Bool.or_eq_true, Bool.and_eq_true, beq_iff_eq,
    Bool.false_eq_true, false_or, or_false, or_assoc] at h
  rcases h with h | h | h | h | h | h | h | h | h | h | h <;> simp [anyAlu, immAlu, h]

theorem regAlu_alone {f7 : BitVec 7} {f3 : BitVec 3} (h : anyAlu (regAlu f7 f3) = true) :
    (f7 == 0b0000001#7) = false := by
  simp only [anyAlu, regAlu, Bool.or_eq_true, Bool.and_eq_true, beq_iff_eq, or_assoc] at h
  rcases h with h | h | h | h | h | h | h | h | h | h <;> simp [h]

/-- The three classes of the computational opcodes exclude each other. -/
theorem computational_exclusive (x : Word) :
    AtMostOne [isBitmanInst x, isAluInst x, false, false, isMulInst x, false] := by
  have hpairs : (isBitmanInst x = true → isAluInst x = false ∧ isMulInst x = false) ∧
      (isAluInst x = true → isMulInst x = false) := by
    by_cases hreg : opcode x = 0b0110011#7
    · rw [isBitmanInst_eq, isAluInst_eq, bitmanOp_reg hreg, aluOp_reg hreg, isMulInst_reg hreg]
      exact ⟨regBitman_alone, regAlu_alone⟩
    · have hreg' : isOpReg x = false := by simpa [isOpReg] using hreg
      have hmul := isMulInst_eq_false hreg'
      refine ⟨?_, fun _ => hmul⟩
      intro h
      refine ⟨?_, hmul⟩
      by_cases himm : opcode x = 0b0010011#7
      · rw [isBitmanInst_eq, bitmanOp_imm himm] at h
        rw [isAluInst_eq, aluOp_imm himm]
        exact immBitman_alone h
      · have himm' : isOpImm x = false := by simpa [isOpImm] using himm
        rw [isBitmanInst_eq_false hreg' himm'] at h
        cases h
  revert hpairs
  generalize isBitmanInst x = b
  generalize isAluInst x = a
  generalize isMulInst x = m
  revert b a m
  decide

/-- The classes outside the computational opcodes. -/
theorem not_computational {x : Word} (hreg : opcode x ≠ 0b0110011#7)
    (himm : opcode x ≠ 0b0010011#7) (hlui : opcode x ≠ 0b0110111#7)
    (hauipc : opcode x ≠ 0b0010111#7) :
    isBitmanInst x = false ∧ isAluInst x = false ∧ isMulInst x = false := by
  have hreg' : isOpReg x = false := by simpa [isOpReg] using hreg
  have himm' : isOpImm x = false := by simpa [isOpImm] using himm
  exact ⟨isBitmanInst_eq_false hreg' himm',
    isAluInst_eq_false hreg' himm' (by simpa [isLui] using hlui) (by simpa [isAuipc] using hauipc),
    isMulInst_eq_false hreg'⟩

theorem opcode_of_isFpuInst {x : Word} (h : isFpuInst x = true) :
    opcode x = 0b1010011#7 ∨ opcode x = 0b1000011#7 ∨ opcode x = 0b1000111#7 ∨
      opcode x = 0b1001011#7 ∨ opcode x = 0b1001111#7 := by
  by_contra hno
  simp only [not_or] at hno
  simp [isFpuInst, isFpuMulticycle, instFaddS, instFsubS, instFmulS, instFminS, instFmaxS,
    instFdivS, instFsqrtS, instFmaddS, instFmsubS, instFnmaddS, instFnmsubS, instFcvtWS,
    instFcvtWuS, instFcvtSW, instFcvtSWu, instFsgnjS, instFsgnjnS, instFsgnjxS, instFmvWX,
    instFmvXW, instFltS, instFleS, instFeqS, instFclassS, isFpu, isFmadd, isFmsub, isFnmsub,
    isFnmadd, hno] at h

theorem opcode_of_isMemInst {x : Word} (h : isMemInst x = true) :
    opcode x = 0b0000011#7 ∨ opcode x = 0b0100011#7 ∨ opcode x = 0b0000111#7 ∨
      opcode x = 0b0100111#7 := by
  by_contra hno
  simp only [not_or] at hno
  simp [isMemInst, isLoad, isStore, instFlw, instFsw, isFload, isFstore, hno] at h

theorem opcode_of_isCsrInst {x : Word} (h : isCsrInst x = true) : opcode x = 0b1110011#7 := by
  by_contra hno
  have hsys : isSystem x = false := by simpa [isSystem] using hno
  rw [isCsrInst_eq_false hsys] at h
  cases h

/-- A selector is low where what it implies fails. -/
theorem low_of_not {bit : Bool} {C : Prop} (h : bit = true → C) (hno : ¬ C) :
    bit = false := by
  cases bit with
  | false => rfl
  | true => exact absurd (h rfl) hno

theorem result_exclusive (x : Word) : AtMostOne (classSelectors x) := by
  unfold classSelectors
  cases hfpu : isFpuInst x with
  | true =>
      have hmem : isMemInst x = false := by
        refine low_of_not opcode_of_isMemInst ?_
        rcases opcode_of_isFpuInst hfpu with hop | hop | hop | hop | hop <;> simp [hop]
      have hcsr : isCsrInst x = false := by
        refine low_of_not opcode_of_isCsrInst ?_
        rcases opcode_of_isFpuInst hfpu with hop | hop | hop | hop | hop <;> simp [hop]
      have hrest : isBitmanInst x = false ∧ isAluInst x = false ∧ isMulInst x = false := by
        rcases opcode_of_isFpuInst hfpu with hop | hop | hop | hop | hop <;>
          exact not_computational (by simp [hop]) (by simp [hop]) (by simp [hop]) (by simp [hop])
      rw [hmem, hcsr, hrest.1, hrest.2.1, hrest.2.2]
      decide
  | false =>
      cases hmem : isMemInst x with
      | true =>
          have hcsr : isCsrInst x = false := by
            refine low_of_not opcode_of_isCsrInst ?_
            rcases opcode_of_isMemInst hmem with hop | hop | hop | hop <;> simp [hop]
          have hrest : isBitmanInst x = false ∧ isAluInst x = false ∧ isMulInst x = false := by
            rcases opcode_of_isMemInst hmem with hop | hop | hop | hop <;>
              exact not_computational (by simp [hop]) (by simp [hop]) (by simp [hop])
                (by simp [hop])
          rw [hcsr, hrest.1, hrest.2.1, hrest.2.2]
          decide
      | false =>
          cases hcsr : isCsrInst x with
          | true =>
              have hop := opcode_of_isCsrInst hcsr
              have hrest := not_computational (x := x) (by simp [hop]) (by simp [hop])
                (by simp [hop]) (by simp [hop])
              rw [hrest.1, hrest.2.1, hrest.2.2]
              decide
          | false => exact computational_exclusive x

/-- The width of a store is its `funct3`. -/
theorem store_exclusive (x : Word) : AtMostOne (storeSelectors x) := by
  have hb : (memOp x).b = true → funct3 x = 0b000#3 := by
    simp only [memOp, instLb, instSb, f3_000, Bool.or_eq_true, Bool.and_eq_true, beq_iff_eq]
    tauto
  have hh : (memOp x).h = true → funct3 x = 0b001#3 := by
    simp only [memOp, instLh, instSh, f3_001, Bool.or_eq_true, Bool.and_eq_true, beq_iff_eq]
    tauto
  have hw : (memOp x).w = true → funct3 x = 0b010#3 := by
    simp only [memOp, instLw, instSw, instFlw, instFsw, f3_010, Bool.or_eq_true, Bool.and_eq_true,
      beq_iff_eq]
    tauto
  unfold storeSelectors
  cases hmb : (memOp x).b with
  | true =>
      have h := hb hmb
      rw [low_of_not hh (by simp [h]), low_of_not hw (by simp [h])]
      cases isStoreInst x <;> decide
  | false =>
      cases hmh : (memOp x).h with
      | true =>
          have h := hh hmh
          rw [low_of_not hw (by simp [h])]
          cases isStoreInst x <;> decide
      | false => cases (memOp x).w <;> cases isStoreInst x <;> decide

theorem mul_exclusive (x : Word) : AtMostOne (mulSelectors (mulPacket x).mulOp) := by
  by_cases hreg : opcode x = 0b0110011#7
  · rw [mulPacket_reg hreg]
    simp only [mulSelectors, regMul]
    generalize funct3 x = f3
    generalize (funct7 x == 0b0000001#7) = m
    revert f3 m
    decide
  · have hreg' : isOpReg x = false := by simpa [isOpReg] using hreg
    simp [mulSelectors, AtMostOne, mulPacket, instMul, instMulh, instMulhsu, instMulhu, instDiv,
      instDivu, instRem, instRemu, hreg']

/-- For every word, all selects have at most one selector high, and both readings then agree on all
operands in every state, exactly if the word is neither `sext.b` nor `sext.h`. -/
theorem selectors_exclusive_iff (x : Word) :
    (Exclusive x ∧ SameReadings x) ↔ instSextb x = false ∧ instSexth x = false := by
  constructor
  · rintro ⟨h, -⟩
    simpa using (bitman_exclusive_iff x).mp h.bitman
  · rintro ⟨hb, hh⟩
    have hexclusive : Exclusive x :=
      { bitman := (bitman_exclusive_iff x).mpr (by rw [hb, hh]; rfl)
        result := result_exclusive x
        store := store_exclusive x
        mul := mul_exclusive x }
    exact ⟨hexclusive, sameReadings_of_exclusive hexclusive⟩

/-- `sext.b x1, x1` is matched by the selector of `cpop` as well, and on `0x80` the two values ORed
are not the sign extension. -/
theorem sextb_not_exclusive :
    ¬ Exclusive 0x60409093#32 ∧
      bitmanParallel (bitmanOp 0x60409093#32) 0x80#32 0#32 ≠
        ExeStage.bitmanResult (bitmanOp 0x60409093#32) 0x80#32 0#32 := by
  have hboth : ¬ AtMostOne (bitmanSelectors (bitmanOp 0x60409093#32)) := by decide
  exact ⟨fun h => hboth h.bitman, by decide⟩

end Select
end RiscvCpu
