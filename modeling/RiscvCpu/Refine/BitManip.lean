import RiscvCpu.Isa.BitManip
import RiscvCpu.Refine.Values

/-!
# BitManip — which words the core takes for bit manipulation, and what it computes

The decoder's matches against the encodings of the instruction set: what is decoded, with which
second operand, and what execute makes of it.
-/

namespace RiscvCpu
namespace BitManip

open Decode
open Isa (BitOp bitDecode bitReg bitImm)

/-! ## What is asked for -/

/-- Decode hands the word `x` over, and execute holds it. -/
structure InExecute (cfg : Config) (x : Word) (d : IdStage.Regs) (q : IdStage.Ports) (hit : Bool)
    (r : ExeStage.Regs) : Prop where
  word : IdStage.idInst d = x
  bus : ExeStage.bus r = IdStage.dsToEsBus cfg d q hit

/-- The second operand of the operation: the shift amount in the word, or what execute has. -/
def secondOperand (o : BitOp) (x : Word) (r : ExeStage.Regs) : Word :=
  match o.second with
  | .shamt => Isa.shamt x
  | _ => ExeStage.src2Base r

/-- Execute computes the operation on its operands, whatever they are. -/
def Computes (x : Word) (o : BitOp) : Prop :=
  ∀ (cfg : Config) (d : IdStage.Regs) (q : IdStage.Ports) (hit : Bool) (r : ExeStage.Regs)
    (p : ExeStage.Ports), InExecute cfg x d q hit r → ExeStage.esFlush r p = false →
    ExeStage.exeResult cfg r p = o.eval (ExeStage.src1Base r) (secondOperand o x r)

/-- Decode takes the second operand from the register `rs2`, with its bypasses, or from the shift
amount. -/
def TakesOperand (x : Word) (o : BitOp) : Prop :=
  ∀ (cfg : Config) (d : IdStage.Regs) (q : IdStage.Ports), IdStage.idInst d = x →
    match o.second with
    | .rs2 =>
        IdStage.src2Fwd cfg d q = IdStage.srcFwd q false (rs2Addr x) ∧
          IdStage.regSrc2 d q = IdStage.src2 d q
    | .shamt => IdStage.src2Fwd cfg d q = 0b00#2 ∧ IdStage.regSrc2 d q = Isa.shamt x
    | .none => True

/-- The result goes to the integer register `rd`. -/
def WritesRd (x : Word) : Prop :=
  ∀ pc, (ctrlPacket x pc).regfileWen = true ∧ (ctrlPacket x pc).exeResultSel.exe = true ∧
    (ctrlPacket x pc).rdAddr = Isa.rd x

/-- Decode and execute treat the word as the instruction set and the list of implemented
instructions say. -/
structure AsSpecified (x : Word) : Prop where
  value : isBitmanInst x = true → ∃ o, bitDecode x = some o ∧ Computes x o
  implemented : ∀ o, bitDecode x = some o → o.listed = true →
    isBitmanInst x = true ∧ WritesRd x ∧ TakesOperand x o
  others : isBitmanInst x = true → ∃ o, bitDecode x = some o ∧ o.listed = true

/-- A word of `bseti`. -/
def BsetiWord (x : Word) : Prop :=
  opcode x = 0b0010011#7 ∧ funct3 x = 0b001#3 ∧ funct7 x = 0b0010100#7

/-- A word beside `sext.b` and `sext.h`: `clz`, `ctz`, `cpop`, or no instruction. -/
def CountWord (x : Word) : Prop :=
  opcode x = 0b0010011#7 ∧ funct3 x = 0b001#3 ∧ funct7 x = 0b0110000#7 ∧
    rs2Addr x ≠ 0b00100#5 ∧ rs2Addr x ≠ 0b00101#5

/-! ## From the decoder to the encodings -/

theorem bext_eq (a b : Word) :
    (BitVec.ofBool (a.getLsbD (b.extractLsb' 0 5).toNat)).setWidth 32 =
      Isa.flag (a.getLsbD (Isa.amount b)) := by
  rw [Isa.amount_eq, Isa.flagWord_eq]

/-- What is decoded under `OP` is a listed encoding, and computes it. -/
theorem bitReg_of_regBitman {f7 : BitVec 7} {f3 : BitVec 3} {r2 : BitVec 5}
    (h : anyBitman (regBitman f7 f3 r2) = true) :
    ∃ o, bitReg f7 f3 r2 = some o ∧ o.listed = true ∧
      ∀ a b, ExeStage.bitmanResult (regBitman f7 f3 r2) a b = o.eval a b := by
  simp only [anyBitman, regBitman, Bool.or_eq_true, Bool.and_eq_true, beq_iff_eq, bne_iff_ne,
    Bool.false_eq_true, or_false, or_assoc] at h
  rcases h with ⟨rfl, rfl⟩ | ⟨rfl, rfl⟩ | ⟨rfl, rfl⟩ | ⟨rfl, rfl⟩ | ⟨rfl, rfl⟩ | ⟨rfl, rfl⟩ |
    ⟨rfl, rfl⟩ | ⟨rfl, rfl⟩ | ⟨rfl, rfl⟩ | ⟨rfl, rfl⟩ | ⟨⟨rfl, rfl⟩, rfl⟩ | ⟨⟨rfl, rfl⟩, hr2⟩ |
    ⟨rfl, rfl⟩ | ⟨rfl, rfl⟩ | ⟨rfl, rfl⟩ | ⟨rfl, rfl⟩ | ⟨rfl, rfl⟩
  · exact ⟨.reg .sh1add, rfl, rfl, fun _ _ => rfl⟩
  · exact ⟨.reg .sh2add, rfl, rfl, fun _ _ => rfl⟩
  · exact ⟨.reg .sh3add, rfl, rfl, fun _ _ => rfl⟩
  · exact ⟨.reg .andn, rfl, rfl, fun _ _ => rfl⟩
  · exact ⟨.reg .orn, rfl, rfl, fun _ _ => rfl⟩
  · exact ⟨.reg .xnor, rfl, rfl, fun _ _ => rfl⟩
  · exact ⟨.reg .min, rfl, rfl, fun _ _ => rfl⟩
  · exact ⟨.reg .max, rfl, rfl, fun _ _ => rfl⟩
  · exact ⟨.reg .minu, rfl, rfl, fun _ _ => rfl⟩
  · exact ⟨.reg .maxu, rfl, rfl, fun _ _ => rfl⟩
  · exact ⟨.zextH, rfl, rfl, fun _ _ => rfl⟩
  · refine ⟨.reg .pack, ?_, rfl, fun a b => ?_⟩
    · rw [bitReg, if_neg fun hzero => hr2 hzero.2.2]
      rfl
    · simp [regBitman, ExeStage.bitmanResult, hr2, BitOp.eval, Isa.RegOp.eval]
  · exact ⟨.reg .packh, rfl, rfl, fun _ _ => rfl⟩
  · exact ⟨.reg .bclr, rfl, rfl, fun _ _ => rfl⟩
  · exact ⟨.reg .bext, rfl, rfl, bext_eq⟩
  · exact ⟨.reg .binv, rfl, rfl, fun _ _ => rfl⟩
  · exact ⟨.reg .bset, rfl, rfl, fun _ _ => rfl⟩

/-- What is decoded under `OP-IMM` is a listed encoding, and computes it, but for the words that the
match of `cpop` takes in. -/
theorem bitImm_of_immBitman {f7 : BitVec 7} {f3 : BitVec 3} {r2 : BitVec 5}
    (h : anyBitman (immBitman f7 r2 f3) = true)
    (hcount : ¬ (f3 = 0b001#3 ∧ f7 = 0b0110000#7 ∧ r2 ≠ 0b00100#5 ∧ r2 ≠ 0b00101#5)) :
    ∃ o, bitImm f7 r2 f3 = some o ∧ o.listed = true ∧
      ∀ a b, ExeStage.bitmanResult (immBitman f7 r2 f3) a b = o.eval a b := by
  simp only [anyBitman, immBitman, Bool.or_eq_true, Bool.and_eq_true, beq_iff_eq,
    Bool.false_eq_true, false_or, or_false, or_assoc] at h
  rcases h with ⟨⟨rfl, rfl⟩, rfl⟩ | ⟨⟨rfl, rfl⟩, rfl⟩ | ⟨⟨rfl, rfl⟩, rfl⟩ | ⟨⟨rfl, rfl⟩, rfl⟩ |
    ⟨⟨rfl, rfl⟩, rfl⟩ | ⟨⟨rfl, rfl⟩, rfl⟩ | ⟨⟨rfl, rfl⟩, rfl⟩ | ⟨rfl, rfl⟩ | ⟨rfl, rfl⟩ |
    ⟨rfl, rfl⟩ | ⟨rfl, rfl⟩
  · exact ⟨.imm .sextB, rfl, rfl, fun _ _ => rfl⟩
  · exact ⟨.imm .sextH, rfl, rfl, fun _ _ => rfl⟩
  · refine ⟨.imm .orcB, rfl, rfl, fun a b => ?_⟩
    show ExeStage.orByte (ExeStage.byteAt a 3) ++ ExeStage.orByte (ExeStage.byteAt a 2) ++
      ExeStage.orByte (ExeStage.byteAt a 1) ++ ExeStage.orByte (ExeStage.byteAt a 0) = Isa.orcB a
    simp only [Isa.orByte_eq]
    rfl
  · exact ⟨.imm .rev8, rfl, rfl, fun _ _ => rfl⟩
  · exact ⟨.imm .brev8, rfl, rfl, fun _ _ => rfl⟩
  · exact ⟨.imm .zip, rfl, rfl, fun _ _ => rfl⟩
  · exact ⟨.imm .unzip, rfl, rfl, fun _ _ => rfl⟩
  · exact ⟨.imm .bclri, rfl, rfl, fun _ _ => rfl⟩
  · exact ⟨.imm .bexti, rfl, rfl, bext_eq⟩
  · exact ⟨.imm .binvi, rfl, rfl, fun _ _ => rfl⟩
  · -- of the words with this `funct7`, only the sign extensions are left
    have hsext : r2 = 0b00100#5 ∨ r2 = 0b00101#5 := by
      by_contra hno
      simp only [not_or] at hno
      exact hcount ⟨rfl, rfl, hno⟩
    rcases hsext with rfl | rfl
    · exact ⟨.imm .sextB, rfl, rfl, fun _ _ => rfl⟩
    · exact ⟨.imm .sextH, rfl, rfl, fun _ _ => rfl⟩

/-! ## From the encodings to the decoder -/

def rs2Bits (o : BitmanOp) : Bool :=
  o.sh1add || o.sh2add || o.sh3add || o.andn || o.orn || o.xnor || o.min || o.max || o.minu ||
  o.maxu || o.pack || o.packh || o.bclr || o.bext || o.binv || o.bset

def indexBits (o : BitmanOp) : Bool := o.bclri || o.bexti || o.binvi

theorem bitRegTable_decoded :
    ∀ e ∈ Isa.bitRegTable, e.2.listed = true → ∀ r2 : BitVec 5,
      ¬ (e.1.1 = 0b0000100#7 ∧ e.1.2 = 0b100#3 ∧ r2 = 0#5) →
      rs2Bits (regBitman e.1.1 e.1.2 r2) = true ∧ e.2.second = .rs2 := by
  decide

theorem bitShamtTable_decoded :
    ∀ e ∈ Isa.bitShamtTable, e.2.listed = true → e.2 ≠ .bseti → ∀ r2 : BitVec 5,
      indexBits (immBitman e.1.1 r2 e.1.2) = true ∧ e.2.second = .shamt := by
  decide

theorem bitUnaryTable_decoded :
    ∀ e ∈ Isa.bitUnaryTable, e.2.listed = true →
      anyBitman (immBitman e.1.1 e.1.2.1 e.1.2.2) = true ∧ e.2.second = .none := by
  decide

theorem anyBitman_of_rs2Bits {o : BitmanOp} (h : rs2Bits o = true) : anyBitman o = true := by
  cases hany : anyBitman o with
  | true => rfl
  | false =>
      simp only [anyBitman, Bool.or_eq_false_iff] at hany
      simp [rs2Bits, hany] at h

theorem anyBitman_of_indexBits {o : BitmanOp} (h : indexBits o = true) : anyBitman o = true := by
  cases hany : anyBitman o with
  | true => rfl
  | false =>
      simp only [anyBitman, Bool.or_eq_false_iff] at hany
      simp [indexBits, hany] at h

/-- A listed encoding other than `bseti`: how the core decodes it, by where the second operand
comes from. -/
inductive ListedAs (x : Word) (o : BitOp) : Prop
  | reg (hop : opcode x = 0b0110011#7) (hbits : rs2Bits (bitmanOp x) = true) (hsecond : o.second = .rs2)
  | zexth (hop : opcode x = 0b0110011#7) (hany : anyBitman (bitmanOp x) = true)
      (hsecond : o.second = .none)
  | index (hop : opcode x = 0b0010011#7) (hbits : indexBits (bitmanOp x) = true)
      (hsecond : o.second = .shamt)
  | unary (hop : opcode x = 0b0010011#7) (hany : anyBitman (bitmanOp x) = true)
      (hsecond : o.second = .none)

theorem listedAs_of_bitDecode {x : Word} {o : BitOp} (h : bitDecode x = some o)
    (hlisted : o.listed = true) (hbseti : ¬ BsetiWord x) : ListedAs x o := by
  unfold bitDecode at h
  split at h
  · rename_i hop
    have hop' : opcode x = 0b0110011#7 := hop
    unfold bitReg at h
    split at h
    · rename_i hzero
      cases h
      refine .zexth hop' ?_ rfl
      rw [bitmanOp_reg hop']
      have hf7 : funct7 x = 0b0000100#7 := hzero.1
      have hf3 : funct3 x = 0b100#3 := hzero.2.1
      have hr2 : rs2Addr x = 0#5 := hzero.2.2
      rw [hf7, hf3, hr2]
      decide
    · rename_i hzero
      have hentry := bitRegTable_decoded _ (Isa.mem_of_lookup h) hlisted (rs2Addr x) hzero
      refine .reg hop' ?_ hentry.2
      rw [bitmanOp_reg hop']
      exact hentry.1
  · split at h
    · rename_i hop
      have hop' : opcode x = 0b0010011#7 := hop
      unfold bitImm at h
      split at h
      · rename_i o' ho
        cases h
        have hne : o ≠ .bseti := by
          rintro rfl
          apply hbseti
          have hmem := Isa.mem_of_lookup ho
          simp [Isa.bitShamtTable] at hmem
          exact ⟨hop', hmem.2, hmem.1⟩
        have hentry := bitShamtTable_decoded _ (Isa.mem_of_lookup ho) hlisted hne (rs2Addr x)
        refine .index hop' ?_ hentry.2
        rw [bitmanOp_imm hop']
        exact hentry.1
      · have hentry := bitUnaryTable_decoded _ (Isa.mem_of_lookup h) hlisted
        refine .unary hop' ?_ hentry.2
        rw [bitmanOp_imm hop']
        exact hentry.1
    · cases h

theorem ListedAs.isBitman {x : Word} {o : BitOp} (h : ListedAs x o) : isBitmanInst x = true := by
  rw [isBitmanInst_eq]
  cases h with
  | reg hop hbits => exact anyBitman_of_rs2Bits hbits
  | zexth hop hany => exact hany
  | index hop hbits => exact anyBitman_of_indexBits hbits
  | unary hop hany => exact hany

/-! ## Operands and destination -/

/-- A bit manipulation never takes the live word of a load. -/
theorem liveLwRs2_of_isBitman {cfg : Config} {d : IdStage.Regs} {q : IdStage.Ports}
    (h : isBitmanInst (IdStage.idInst d) = true) : IdStage.liveLwRs2 cfg d q = false := by
  simp [IdStage.liveLwRs2, IdStage.ordinaryIntAluConsumer, h]

theorem ListedAs.takesOperand {x : Word} {o : BitOp} (h : ListedAs x o) : TakesOperand x o := by
  rintro cfg d q rfl
  have hbitman := h.isBitman
  have hrs2 : instBitmanRs2Inst (IdStage.idInst d) = rs2Bits (bitmanOp (IdStage.idInst d)) := rfl
  have hindex : instBitmanImmInst (IdStage.idInst d) = indexBits (bitmanOp (IdStage.idInst d)) := rfl
  cases h with
  | reg hop hbits hsecond =>
      have hsel : aluSrc2ImmSel (IdStage.idInst d) = false := by
        simp [aluSrc2ImmSel, isOpImm, isLui, isAuipc, hop]
      have hno : indexBits (bitmanOp (IdStage.idInst d)) = false := by
        rw [bitmanOp_reg hop]
        rfl
      rw [hsecond]
      constructor
      · simp [IdStage.src2Fwd, hsel, hindex, hno, hrs2, hbits, liveLwRs2_of_isBitman hbitman]
      · simp [IdStage.regSrc2, hsel, hindex, hno]
  | zexth hop hany hsecond =>
      rw [hsecond]
      trivial
  | index hop hbits hsecond =>
      rw [hsecond]
      constructor
      · simp [IdStage.src2Fwd, hindex, hbits]
      · simp [IdStage.regSrc2, hindex, hbits, Isa.shamt, rs2Addr, Isa.rs2]
  | unary hop hany hsecond =>
      rw [hsecond]
      trivial

theorem writesRd_of_isBitman {x : Word} (h : isBitmanInst x = true) : WritesRd x := by
  intro pc
  exact ⟨by simp [ctrlPacket, ctrlRegfileWen, h], by simp [ctrlPacket, exeResultSel, h], rfl⟩

/-- The value of a bit manipulation in execute. -/
theorem exeResult_of_isBitman {cfg : Config} {x : Word} {d : IdStage.Regs} {q : IdStage.Ports}
    {hit : Bool} {r : ExeStage.Regs} {p : ExeStage.Ports} (h : InExecute cfg x d q hit r)
    (hbitman : isBitmanInst x = true) (hflush : ExeStage.esFlush r p = false) :
    ExeStage.exeResult cfg r p =
      ExeStage.bitmanResult (bitmanOp x) (ExeStage.src1Base r) (ExeStage.src2Base r) := by
  have hclass : (ExeStage.bus r).ctrl.isBitman = true := by
    rw [h.bus]
    simpa [IdStage.dsToEsBus, ctrlPacket, h.word] using hbitman
  have hop : (ExeStage.bus r).bitmanOp = bitmanOp x := by
    rw [h.bus, ← h.word]
    rfl
  simp [ExeStage.exeResult, hflush, hclass, hop]

/-- Where the second operand is the shift amount, execute has it. -/
theorem secondOperand_eq {cfg : Config} {x : Word} {d : IdStage.Regs} {q : IdStage.Ports}
    {hit : Bool} {r : ExeStage.Regs} {o : BitOp} (h : InExecute cfg x d q hit r)
    (hop : TakesOperand x o) : secondOperand o x r = ExeStage.src2Base r := by
  unfold secondOperand
  have htakes := hop cfg d q h.word
  cases hsecond : o.second with
  | rs2 => rfl
  | none => rfl
  | shamt =>
      rw [hsecond] at htakes
      have hsrc : (ExeStage.bus r).src = IdStage.srcPacket cfg d q := by
        rw [h.bus]
        rfl
      simp [ExeStage.src2Base, hsrc, IdStage.srcPacket, htakes.1, htakes.2, ExeStage.srcBase]

/-! ## The exact words -/

/-- Outside the two kinds of words, what is decoded is a listed encoding and computes it. -/
theorem listed_of_isBitman {x : Word} (h : isBitmanInst x = true) (hcount : ¬ CountWord x) :
    ∃ o, bitDecode x = some o ∧ o.listed = true ∧
      ∀ a b, ExeStage.bitmanResult (bitmanOp x) a b = o.eval a b := by
  by_cases hreg : opcode x = 0b0110011#7
  · have hdecode : bitDecode x = bitReg (funct7 x) (funct3 x) (rs2Addr x) :=
      Isa.bitDecode_reg hreg
    rw [isBitmanInst_eq, bitmanOp_reg hreg] at h
    rcases bitReg_of_regBitman h with ⟨o, ho, hlisted, heval⟩
    exact ⟨o, hdecode.trans ho, hlisted, by rw [bitmanOp_reg hreg]; exact heval⟩
  · by_cases himm : opcode x = 0b0010011#7
    · have hdecode : bitDecode x = bitImm (funct7 x) (rs2Addr x) (funct3 x) :=
        Isa.bitDecode_imm himm
      rw [isBitmanInst_eq, bitmanOp_imm himm] at h
      rcases bitImm_of_immBitman h fun hc => hcount ⟨himm, hc⟩ with ⟨o, ho, hlisted, heval⟩
      exact ⟨o, hdecode.trans ho, hlisted, by rw [bitmanOp_imm himm]; exact heval⟩
    · have hreg' : isOpReg x = false := by simpa [isOpReg] using hreg
      have himm' : isOpImm x = false := by simpa [isOpImm] using himm
      rw [isBitmanInst_eq_false hreg' himm'] at h
      cases h

/-- `bseti` is listed and not decoded. -/
theorem not_asSpecified_of_bseti {x : Word} (h : BsetiWord x) : ¬ AsSpecified x := by
  intro hspec
  rcases h with ⟨hop, hf3, hf7⟩
  have hdecode : bitDecode x = some .bseti := by
    have himm : bitDecode x = bitImm (funct7 x) (rs2Addr x) (funct3 x) := Isa.bitDecode_imm hop
    rw [himm, hf3, hf7]
    rfl
  have hbitman := (hspec.implemented _ hdecode rfl).1
  have hnone : ∀ r2 : BitVec 5, anyBitman (immBitman 0b0010100#7 r2 0b001#3) = false := by decide
  rw [isBitmanInst_eq, bitmanOp_imm hop, hf3, hf7, hnone] at hbitman
  cases hbitman

theorem unlisted_beside_sext :
    ∀ e ∈ Isa.bitUnaryTable, e.1.1 = 0b0110000#7 → e.1.2.1 ≠ 0b00100#5 → e.1.2.1 ≠ 0b00101#5 →
      e.2.listed = false := by
  decide

/-- The match of `cpop` takes in words that are no listed instruction. -/
theorem not_asSpecified_of_count {x : Word} (h : CountWord x) : ¬ AsSpecified x := by
  intro hspec
  rcases h with ⟨hop, hf3, hf7, hb, hh⟩
  have hbitman : isBitmanInst x = true := by
    have hany : ∀ r2 : BitVec 5, anyBitman (immBitman 0b0110000#7 r2 0b001#3) = true := by decide
    rw [isBitmanInst_eq, bitmanOp_imm hop, hf3, hf7, hany]
  rcases hspec.others hbitman with ⟨o, ho, hlisted⟩
  have himm : bitDecode x = bitImm (funct7 x) (rs2Addr x) (funct3 x) := Isa.bitDecode_imm hop
  rw [himm, hf3, hf7] at ho
  have hmem : ((0b0110000#7, rs2Addr x, 0b001#3), o) ∈ Isa.bitUnaryTable := Isa.mem_of_lookup ho
  rw [unlisted_beside_sext _ hmem rfl hb hh] at hlisted
  cases hlisted

/-- The bit manipulation of the core is that of the instruction set, with exactly the encodings that
are listed as implemented, for every word but those of `bseti` and those beside `sext.b` and
`sext.h`. -/
theorem asSpecified_iff (x : Word) : AsSpecified x ↔ ¬ BsetiWord x ∧ ¬ CountWord x := by
  constructor
  · intro h
    exact ⟨fun hb => not_asSpecified_of_bseti hb h, fun hc => not_asSpecified_of_count hc h⟩
  · rintro ⟨hbseti, hcount⟩
    refine ⟨?value, ?implemented, ?others⟩
    case value =>
      intro h
      rcases listed_of_isBitman h hcount with ⟨o, ho, hlisted, heval⟩
      refine ⟨o, ho, ?_⟩
      intro cfg d q hit r p hin hflush
      have htakes := (listedAs_of_bitDecode ho hlisted hbseti).takesOperand
      rw [exeResult_of_isBitman hin h hflush, heval, secondOperand_eq hin htakes]
    case implemented =>
      intro o ho hlisted
      have has := listedAs_of_bitDecode ho hlisted hbseti
      exact ⟨has.isBitman, writesRd_of_isBitman has.isBitman, has.takesOperand⟩
    case others =>
      intro h
      rcases listed_of_isBitman h hcount with ⟨o, ho, hlisted, -⟩
      exact ⟨o, ho, hlisted⟩

/-- `bseti x1, x1, 0` and `clz x1, x1`. -/
theorem not_always_asSpecified : ¬ AsSpecified 0x28009093#32 ∧ ¬ AsSpecified 0x60009093#32 := by
  refine ⟨not_asSpecified_of_bseti ?_, not_asSpecified_of_count ?_⟩
  · exact ⟨by decide, by decide, by decide⟩
  · exact ⟨by decide, by decide, by decide, by decide, by decide⟩

end BitManip
end RiscvCpu
