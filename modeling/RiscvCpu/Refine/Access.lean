import RiscvCpu.Pipeline.Trap
import RiscvCpu.Refine.Values

/-!
# Access — memory accesses and jumps, in the core and in the instruction set

The strobes and the replicated data of a store, the lanes a load selects, and the comparisons and
targets of branches and jumps.
-/

namespace RiscvCpu

open Decode

namespace Datapath

/-! ## Memory accesses -/

theorem low_bits (addr : Word) : (addr.extractLsb' 0 2).toNat = Isa.offset addr := by
  simp [Isa.offset, BitVec.extractLsb'_toNat]

theorem low_bits_beq (addr : Word) (k : BitVec 2) :
    (addr.extractLsb' 0 2 == k) = (Isa.offset addr == k.toNat) := by
  rw [← low_bits, Bool.eq_iff_iff, beq_iff_eq, beq_iff_eq, BitVec.toNat_inj]

theorem bit_one (addr : Word) : addr.getLsbD 1 = decide (2 ≤ Isa.offset addr) := by
  rw [Isa.offset, Bool.eq_iff_iff, BitVec.getLsbD, Nat.testBit_eq_decide_div_mod_eq]
  simp only [decide_eq_true_eq]
  omega

theorem offset_lt (addr : Word) : Isa.offset addr < 4 := Nat.mod_lt _ (by decide)

theorem shifted_bits (w : Word) (k len : Nat) :
    (w >>> k).extractLsb' 0 len = w.extractLsb' k len := by
  apply BitVec.eq_of_getLsbD_eq
  intro n hn
  simp [hn]

/-- The strobed lanes of a replicated byte, and of a replicated half-word. -/
theorem strobe_byte (x : Word) {k : Nat} (hk : k < 4) :
    strobeWord (0b0001#4 <<< k) 0#32 (x.extractLsb' 0 8 ++ x.extractLsb' 0 8 ++
      x.extractLsb' 0 8 ++ x.extractLsb' 0 8) = (x &&& 0xff#32) <<< (8 * k) := by
  have hmask : ∀ n < 32, (0xff#32).getLsbD n = decide (n < 8) := by decide
  apply BitVec.eq_of_getLsbD_eq
  intro n hn
  rcases (by omega : k = 0 ∨ k = 1 ∨ k = 2 ∨ k = 3) with rfl | rfl | rfl | rfl <;>
  · simp only [strobeWord, strobeByte, BitVec.getLsbD_append, BitVec.getLsbD_shiftLeft,
      BitVec.getLsbD_and]
    simp
    grind

theorem strobe_half (x : Word) {k : Nat} (hk : k = 0 ∨ k = 2) :
    strobeWord (0b0011#4 <<< k) 0#32 (x.extractLsb' 0 16 ++ x.extractLsb' 0 16) =
      (x &&& 0xffff#32) <<< (8 * k) := by
  have hmask : ∀ n < 32, (0xffff#32).getLsbD n = decide (n < 16) := by decide
  apply BitVec.eq_of_getLsbD_eq
  intro n hn
  rcases hk with rfl | rfl <;>
  · simp only [strobeWord, strobeByte, BitVec.getLsbD_append, BitVec.getLsbD_shiftLeft,
      BitVec.getLsbD_and]
    simp
    grind

/-- `dmem_wen` of an unflushed store, from its size field. -/
def storeWen (f3 : BitVec 3) (addr : Word) : BitVec 4 :=
  if f3 == 0b000#3 then ExeStage.sbWen addr
  else if f3 == 0b001#3 then ExeStage.shWen addr
  else if f3 == 0b010#3 then 0b1111#4
  else 0b0000#4

/-- `dmem_wdata`. -/
def storeData (f3 : BitVec 3) (b : Word) : Word :=
  if f3 == 0b000#3 then
    b.extractLsb' 0 8 ++ b.extractLsb' 0 8 ++ b.extractLsb' 0 8 ++ b.extractLsb' 0 8
  else if f3 == 0b001#3 then b.extractLsb' 0 16 ++ b.extractLsb' 0 16
  else b

theorem sbWen_eq (addr : Word) : ExeStage.sbWen addr = 0b0001#4 <<< Isa.offset addr := by
  have h := offset_lt addr
  simp only [ExeStage.sbWen, low_bits_beq]
  rcases (by omega : Isa.offset addr = 0 ∨ Isa.offset addr = 1 ∨ Isa.offset addr = 2 ∨
    Isa.offset addr = 3) with h | h | h | h <;> simp [h]

theorem shWen_eq {addr : Word} (h : Isa.offset addr = 0 ∨ Isa.offset addr = 2) :
    ExeStage.shWen addr = 0b0011#4 <<< Isa.offset addr := by
  simp only [ExeStage.shWen, bit_one]
  rcases h with h | h <;> simp [h]

/-- An aligned store presents the strobes and the lanes of its operation. -/
theorem store_agrees (addr b : Word) :
    ∀ e ∈ Isa.storeTable, addr.toNat % e.2.size = 0 →
      storeWen e.1 addr = e.2.strobes addr ∧
        strobeWord (storeWen e.1 addr) 0#32 (storeData e.1 b) = e.2.lanes addr b := by
  simp only [Isa.storeTable, List.forall_mem_cons]
  refine ⟨?sb, ?sh, ?sw, ?nil⟩
  case sb =>
    intro _
    have hwen : storeWen 0b000#3 addr = 0b0001#4 <<< Isa.offset addr := sbWen_eq addr
    rw [hwen]
    exact ⟨rfl, strobe_byte b (offset_lt addr)⟩
  case sh =>
    intro hal
    -- an aligned half word starts at byte 0 or 2
    have hoff : Isa.offset addr = 0 ∨ Isa.offset addr = 2 := by
      have h2 : addr.toNat % 2 = 0 := hal
      simp only [Isa.offset]
      omega
    have hwen : storeWen 0b001#3 addr = 0b0011#4 <<< Isa.offset addr := shWen_eq hoff
    rw [hwen]
    exact ⟨rfl, strobe_half b hoff⟩
  case sw =>
    intro _
    exact ⟨rfl, strobeWord_full 0#32 b⟩
  case nil => simp

/-- The load unit of the memory stage. -/
def loadValue (l : LoadInst) (addr rdata : Word) : Word :=
  let offset := addr.extractLsb' 0 2
  let byte :=
    if offset == 0b00#2 then rdata.extractLsb' 0 8
    else if offset == 0b01#2 then rdata.extractLsb' 8 8
    else if offset == 0b10#2 then rdata.extractLsb' 16 8
    else rdata.extractLsb' 24 8
  let half := if offset.getLsbD 1 then rdata.extractLsb' 16 16 else rdata.extractLsb' 0 16
  if l == LoadInst.LB then byte.signExtend 32
  else if l == LoadInst.LBU then byte.setWidth 32
  else if l == LoadInst.LH then half.signExtend 32
  else if l == LoadInst.LHU then half.setWidth 32
  else rdata

theorem loadData_eq (r : MemStage.Regs) (rdata : Word) :
    MemStage.loadData r rdata =
      loadValue (MemStage.bus r).loadInst (MemStage.bus r).exeResult rdata := rfl

/-- The load vector of a load, from its size field. -/
def loadVector (f3 : BitVec 3) : LoadInst :=
  ⟨f3 == 0b000#3, f3 == 0b001#3, f3 == 0b010#3, f3 == 0b100#3, f3 == 0b101#3, false⟩

theorem load_byte (addr w : Word) :
    (if addr.extractLsb' 0 2 == 0b00#2 then w.extractLsb' 0 8
      else if addr.extractLsb' 0 2 == 0b01#2 then w.extractLsb' 8 8
      else if addr.extractLsb' 0 2 == 0b10#2 then w.extractLsb' 16 8
      else w.extractLsb' 24 8) = (w >>> (8 * Isa.offset addr)).extractLsb' 0 8 := by
  have h := offset_lt addr
  rw [shifted_bits]
  simp only [low_bits_beq]
  rcases (by omega : Isa.offset addr = 0 ∨ Isa.offset addr = 1 ∨ Isa.offset addr = 2 ∨
    Isa.offset addr = 3) with h | h | h | h <;> simp [h]

theorem load_half {addr : Word} (w : Word) (h : Isa.offset addr = 0 ∨ Isa.offset addr = 2) :
    (if (addr.extractLsb' 0 2).getLsbD 1 then w.extractLsb' 16 16 else w.extractLsb' 0 16) =
      (w >>> (8 * Isa.offset addr)).extractLsb' 0 16 := by
  have hbit : (addr.extractLsb' 0 2).getLsbD 1 = addr.getLsbD 1 := by simp
  rw [shifted_bits, hbit, bit_one]
  rcases h with h | h <;> simp [h]

/-- An aligned load extracts the value of its operation. -/
theorem load_agrees (addr w : Word) :
    ∀ e ∈ Isa.loadTable, addr.toNat % e.2.size = 0 →
      loadValue (loadVector e.1) addr w = e.2.extract addr w := by
  have hhalf (hal : addr.toNat % 2 = 0) : Isa.offset addr = 0 ∨ Isa.offset addr = 2 := by
    simp only [Isa.offset]
    omega
  simp only [Isa.loadTable, List.forall_mem_cons]
  refine ⟨?lb, ?lh, ?lw, ?lbu, ?lhu, ?nil⟩
  case lb =>
    intro _
    exact congrArg (fun x : BitVec 8 => x.signExtend 32) (load_byte addr w)
  case lh =>
    intro hal
    exact congrArg (fun x : BitVec 16 => x.signExtend 32) (load_half w (hhalf hal))
  case lw =>
    intro hal
    have hoff : Isa.offset addr = 0 := hal
    show w = w >>> (8 * Isa.offset addr)
    simp [hoff]
  case lbu =>
    intro _
    exact congrArg (fun x : BitVec 8 => x.setWidth 32) (load_byte addr w)
  case lhu =>
    intro hal
    exact congrArg (fun x : BitVec 16 => x.setWidth 32) (load_half w (hhalf hal))
  case nil => simp

/-! ## Branches and jumps -/

theorem brLtu_eq (a b : Word) : ExeStage.brLtu a b = a.ult b := by
  have ha := a.isLt
  have hb := b.isLt
  rw [ExeStage.brLtu, BitVec.getLsbD, Nat.testBit_eq_decide_div_mod_eq, BitVec.ult,
    BitVec.toNat_sub, BitVec.toNat_setWidth, BitVec.toNat_setWidth, decide_eq_decide]
  omega

theorem brLt_eq (a b : Word) : ExeStage.brLt a b = a.slt b := by
  have hmsb (x : Word) : x.getLsbD 31 = decide (2 ^ 31 ≤ x.toNat) :=
    (BitVec.msb_eq_getLsbD_last x).symm.trans (BitVec.msb_eq_decide x)
  have ha := a.isLt
  have hb := b.isLt
  rw [ExeStage.brLt, brLtu_eq, hmsb, hmsb, BitVec.slt_eq_decide, BitVec.ult]
  rw [BitVec.toInt_eq_toNat_cond, BitVec.toInt_eq_toNat_cond]
  -- the signs differ, or the words compare as naturals
  by_cases h1 : 2 ^ 31 ≤ a.toNat <;> by_cases h2 : 2 ^ 31 ≤ b.toNat <;>
    simp only [h1, h2, decide_true, decide_false, bne_self_eq_false, Bool.false_eq_true, if_false,
      Bool.true_bne, Bool.false_bne, Bool.not_false, if_true] <;>
    grind

/-- The comparison of a branch, from its function field. -/
def branchOp (f3 : BitVec 3) : BrJmpOpcode :=
  ⟨f3 == 0b000#3, f3 == 0b001#3, f3 == 0b100#3, f3 == 0b101#3, f3 == 0b110#3, f3 == 0b111#3⟩

theorem cond_agrees (a b : Word) :
    ∀ e ∈ Isa.condTable,
      ((branchOp e.1).any && ExeStage.brCondRaw (branchOp e.1) a b) = e.2.holds a b := by
  simp only [Isa.condTable, List.forall_mem_cons]
  refine ⟨?eq, ?ne, ?lt, ?ge, ?ltu, ?geu, ?nil⟩
  case nil => simp
  all_goals
    simp [branchOp, BrJmpOpcode.any, ExeStage.brCondRaw, ExeStage.brEq, brLtu_eq, brLt_eq,
      Isa.Cond.holds, bne]

/-- Clearing the lowest bit. -/
theorem pcJalr_eq (x : Word) : x.extractLsb' 1 31 ++ 0#1 = x &&& ~~~1#32 := by
  have hmask : ∀ n < 32, (1#32).getLsbD n = decide (n = 0) := by decide
  apply BitVec.eq_of_getLsbD_eq
  intro n hn
  simp only [BitVec.getLsbD_append, BitVec.getLsbD_extractLsb', BitVec.getLsbD_and,
    BitVec.getLsbD_not]
  grind

end Datapath
end RiscvCpu
