import RiscvCpu.Isa.Instr

/-!
# Encoding — the instruction words of the sequential machine

The encodings are tables of function fields, looked up in order.  A word outside the tables is no
instruction of the machine.  `pack` with the second operand `x0` is `zext.h`.
-/

namespace RiscvCpu
namespace Isa

/-! ## Fields -/

def opcode (w : Word) : BitVec 7 := w.extractLsb' 0 7
def rd (w : Word) : BitVec 5 := w.extractLsb' 7 5
def funct3 (w : Word) : BitVec 3 := w.extractLsb' 12 3
def rs1 (w : Word) : BitVec 5 := w.extractLsb' 15 5
def rs2 (w : Word) : BitVec 5 := w.extractLsb' 20 5
def funct7 (w : Word) : BitVec 7 := w.extractLsb' 25 7
def imm12 (w : Word) : BitVec 12 := w.extractLsb' 20 12

def immI (w : Word) : Word := (imm12 w).signExtend 32

def immS (w : Word) : Word := (w.extractLsb' 25 7 ++ w.extractLsb' 7 5).signExtend 32

def immB (w : Word) : Word :=
  (w.extractLsb' 31 1 ++ w.extractLsb' 7 1 ++ w.extractLsb' 25 6 ++ w.extractLsb' 8 4 ++
    0#1).signExtend 32

def immU (w : Word) : Word := w.extractLsb' 12 20 ++ 0#12

def immJ (w : Word) : Word :=
  (w.extractLsb' 31 1 ++ w.extractLsb' 12 8 ++ w.extractLsb' 20 1 ++ w.extractLsb' 21 10 ++
    0#1).signExtend 32

/-- The five-bit shift amount. -/
def shamt (w : Word) : Word := (rs2 w).setWidth 32

/-! ## Tables -/

/-- `OP`: `funct7`, `funct3`. -/
def regTable : List ((BitVec 7 × BitVec 3) × RegOp) :=
  [((0b0000000#7, 0b000#3), .add), ((0b0100000#7, 0b000#3), .sub),
    ((0b0000000#7, 0b001#3), .sll), ((0b0000000#7, 0b010#3), .slt),
    ((0b0000000#7, 0b011#3), .sltu), ((0b0000000#7, 0b100#3), .xor),
    ((0b0000000#7, 0b101#3), .srl), ((0b0100000#7, 0b101#3), .sra),
    ((0b0000000#7, 0b110#3), .or), ((0b0000000#7, 0b111#3), .and),
    ((0b0000001#7, 0b000#3), .mul), ((0b0000001#7, 0b001#3), .mulh),
    ((0b0000001#7, 0b010#3), .mulhsu), ((0b0000001#7, 0b011#3), .mulhu),
    ((0b0000001#7, 0b100#3), .div), ((0b0000001#7, 0b101#3), .divu),
    ((0b0000001#7, 0b110#3), .rem), ((0b0000001#7, 0b111#3), .remu),
    ((0b0010000#7, 0b010#3), .sh1add), ((0b0010000#7, 0b100#3), .sh2add),
    ((0b0010000#7, 0b110#3), .sh3add),
    ((0b0100000#7, 0b111#3), .andn), ((0b0100000#7, 0b110#3), .orn),
    ((0b0100000#7, 0b100#3), .xnor),
    ((0b0000101#7, 0b100#3), .min), ((0b0000101#7, 0b110#3), .max),
    ((0b0000101#7, 0b101#3), .minu), ((0b0000101#7, 0b111#3), .maxu),
    ((0b0000100#7, 0b100#3), .pack), ((0b0000100#7, 0b111#3), .packh),
    ((0b0100100#7, 0b001#3), .bclr), ((0b0100100#7, 0b101#3), .bext),
    ((0b0110100#7, 0b001#3), .binv), ((0b0010100#7, 0b001#3), .bset)]

/-- `OP-IMM` with a twelve-bit immediate: `funct3`. -/
def immTable : List (BitVec 3 × ImmOp) :=
  [(0b000#3, .addi), (0b010#3, .slti), (0b011#3, .sltiu), (0b100#3, .xori), (0b110#3, .ori),
    (0b111#3, .andi)]

/-- `OP-IMM` with a shift amount or a bit index: `imm[11:5]`, `funct3`. -/
def shamtTable : List ((BitVec 7 × BitVec 3) × ImmOp) :=
  [((0b0000000#7, 0b001#3), .slli), ((0b0000000#7, 0b101#3), .srli),
    ((0b0100000#7, 0b101#3), .srai),
    ((0b0100100#7, 0b001#3), .bclri), ((0b0100100#7, 0b101#3), .bexti),
    ((0b0110100#7, 0b001#3), .binvi)]

/-- `OP-IMM` with one operand: `imm[11:0]`, `funct3`. -/
def unaryTable : List ((BitVec 12 × BitVec 3) × ImmOp) :=
  [((0x604#12, 0b001#3), .sextB), ((0x605#12, 0b001#3), .sextH), ((0x602#12, 0b001#3), .cpop),
    ((0x08f#12, 0b001#3), .zip), ((0x08f#12, 0b101#3), .unzip), ((0x287#12, 0b101#3), .orcB),
    ((0x698#12, 0b101#3), .rev8), ((0x687#12, 0b101#3), .brev8)]

def condTable : List (BitVec 3 × Cond) :=
  [(0b000#3, .eq), (0b001#3, .ne), (0b100#3, .lt), (0b101#3, .ge), (0b110#3, .ltu),
    (0b111#3, .geu)]

def loadTable : List (BitVec 3 × LoadOp) :=
  [(0b000#3, .lb), (0b001#3, .lh), (0b010#3, .lw), (0b100#3, .lbu), (0b101#3, .lhu)]

def storeTable : List (BitVec 3 × StoreOp) :=
  [(0b000#3, .sb), (0b001#3, .sh), (0b010#3, .sw)]

/-! ## Decoding -/

def decodeOpImm (w : Word) : Option Instr :=
  match immTable.lookup (funct3 w) with
  | some o => some (.opImm o (rd w) (rs1 w) (immI w))
  | none =>
      match shamtTable.lookup (funct7 w, funct3 w) with
      | some o => some (.opImm o (rd w) (rs1 w) (shamt w))
      | none =>
          (unaryTable.lookup (imm12 w, funct3 w)).map fun o => .opImm o (rd w) (rs1 w) 0#32

def decode (w : Word) : Option Instr :=
  if opcode w = 0b0110111#7 then some (.lui (rd w) (immU w))
  else if opcode w = 0b0010111#7 then some (.auipc (rd w) (immU w))
  else if opcode w = 0b1101111#7 then some (.jal (rd w) (immJ w))
  else if opcode w = 0b1100111#7 then
    if funct3 w = 0b000#3 then some (.jalr (rd w) (rs1 w) (immI w)) else none
  else if opcode w = 0b1100011#7 then
    (condTable.lookup (funct3 w)).map fun c => .branch c (rs1 w) (rs2 w) (immB w)
  else if opcode w = 0b0000011#7 then
    (loadTable.lookup (funct3 w)).map fun o => .load o (rd w) (rs1 w) (immI w)
  else if opcode w = 0b0100011#7 then
    (storeTable.lookup (funct3 w)).map fun o => .store o (rs1 w) (rs2 w) (immS w)
  else if opcode w = 0b0010011#7 then decodeOpImm w
  else if opcode w = 0b0110011#7 then
    (regTable.lookup (funct7 w, funct3 w)).map fun o => .op o (rd w) (rs1 w) (rs2 w)
  else if opcode w = 0b0001111#7 then
    if funct3 w = 0b000#3 then some .fence else none
  else none

/-! ## What a decoded word looks like -/

/-- The word encodes the instruction. -/
inductive Encodes (w : Word) : Instr → Prop
  | lui (hop : opcode w = 0b0110111#7) : Encodes w (.lui (rd w) (immU w))
  | auipc (hop : opcode w = 0b0010111#7) : Encodes w (.auipc (rd w) (immU w))
  | jal (hop : opcode w = 0b1101111#7) : Encodes w (.jal (rd w) (immJ w))
  | jalr (hop : opcode w = 0b1100111#7) : Encodes w (.jalr (rd w) (rs1 w) (immI w))
  | branch (c : Cond) (hop : opcode w = 0b1100011#7) (hc : (funct3 w, c) ∈ condTable) :
      Encodes w (.branch c (rs1 w) (rs2 w) (immB w))
  | load (o : LoadOp) (hop : opcode w = 0b0000011#7) (ho : (funct3 w, o) ∈ loadTable) :
      Encodes w (.load o (rd w) (rs1 w) (immI w))
  | store (o : StoreOp) (hop : opcode w = 0b0100011#7) (ho : (funct3 w, o) ∈ storeTable) :
      Encodes w (.store o (rs1 w) (rs2 w) (immS w))
  | imm (o : ImmOp) (hop : opcode w = 0b0010011#7) (ho : (funct3 w, o) ∈ immTable) :
      Encodes w (.opImm o (rd w) (rs1 w) (immI w))
  | shamt (o : ImmOp) (hop : opcode w = 0b0010011#7)
      (ho : ((funct7 w, funct3 w), o) ∈ shamtTable) :
      Encodes w (.opImm o (rd w) (rs1 w) (shamt w))
  | unary (o : ImmOp) (hop : opcode w = 0b0010011#7)
      (ho : ((imm12 w, funct3 w), o) ∈ unaryTable) :
      Encodes w (.opImm o (rd w) (rs1 w) 0#32)
  | op (o : RegOp) (hop : opcode w = 0b0110011#7) (ho : ((funct7 w, funct3 w), o) ∈ regTable) :
      Encodes w (.op o (rd w) (rs1 w) (rs2 w))
  | fence (hop : opcode w = 0b0001111#7) : Encodes w .fence

theorem mem_of_lookup {α β : Type} [BEq α] [LawfulBEq α] {l : List (α × β)} {k : α} {b : β}
    (h : l.lookup k = some b) : (k, b) ∈ l := by
  rcases List.lookup_eq_some_iff.mp h with ⟨l₁, l₂, rfl, -⟩
  simp

theorem encodes_of_decodeOpImm {w : Word} {i : Instr} (hop : opcode w = 0b0010011#7)
    (h : decodeOpImm w = some i) : Encodes w i := by
  unfold decodeOpImm at h
  split at h
  · rename_i o ho
    cases h
    exact .imm o hop (mem_of_lookup ho)
  · split at h
    · rename_i o ho
      cases h
      exact .shamt o hop (mem_of_lookup ho)
    · rcases Option.map_eq_some_iff.mp h with ⟨o, ho, rfl⟩
      exact .unary o hop (mem_of_lookup ho)

theorem encodes_of_decode {w : Word} {i : Instr} (h : decode w = some i) : Encodes w i := by
  unfold decode at h
  by_cases hlui : opcode w = 0b0110111#7
  · rw [if_pos hlui] at h
    cases h
    exact .lui hlui
  rw [if_neg hlui] at h
  by_cases hauipc : opcode w = 0b0010111#7
  · rw [if_pos hauipc] at h
    cases h
    exact .auipc hauipc
  rw [if_neg hauipc] at h
  by_cases hjal : opcode w = 0b1101111#7
  · rw [if_pos hjal] at h
    cases h
    exact .jal hjal
  rw [if_neg hjal] at h
  by_cases hjalr : opcode w = 0b1100111#7
  · rw [if_pos hjalr] at h
    by_cases hf3 : funct3 w = 0b000#3
    · rw [if_pos hf3] at h
      cases h
      exact .jalr hjalr
    · rw [if_neg hf3] at h
      cases h
  rw [if_neg hjalr] at h
  by_cases hbranch : opcode w = 0b1100011#7
  · rw [if_pos hbranch] at h
    rcases Option.map_eq_some_iff.mp h with ⟨c, hc, rfl⟩
    exact .branch c hbranch (mem_of_lookup hc)
  rw [if_neg hbranch] at h
  by_cases hload : opcode w = 0b0000011#7
  · rw [if_pos hload] at h
    rcases Option.map_eq_some_iff.mp h with ⟨o, ho, rfl⟩
    exact .load o hload (mem_of_lookup ho)
  rw [if_neg hload] at h
  by_cases hstore : opcode w = 0b0100011#7
  · rw [if_pos hstore] at h
    rcases Option.map_eq_some_iff.mp h with ⟨o, ho, rfl⟩
    exact .store o hstore (mem_of_lookup ho)
  rw [if_neg hstore] at h
  by_cases himm : opcode w = 0b0010011#7
  · rw [if_pos himm] at h
    exact encodes_of_decodeOpImm himm h
  rw [if_neg himm] at h
  by_cases hreg : opcode w = 0b0110011#7
  · rw [if_pos hreg] at h
    rcases Option.map_eq_some_iff.mp h with ⟨o, ho, rfl⟩
    exact .op o hreg (mem_of_lookup ho)
  rw [if_neg hreg] at h
  by_cases hfence : opcode w = 0b0001111#7
  · rw [if_pos hfence] at h
    by_cases hf3 : funct3 w = 0b000#3
    · rw [if_pos hf3] at h
      cases h
      exact .fence hfence
    · rw [if_neg hf3] at h
      cases h
  rw [if_neg hfence] at h
  cases h

end Isa
end RiscvCpu
