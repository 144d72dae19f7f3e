import RiscvCpu.Lib.Memory

/-!
# Instr — the instructions of the sequential machine

The integer instructions of RV32I without SYSTEM, RV32M, and the operations of Zba, Zbb, Zbkb and Zbs
that the core implements, with the values they compute.  Everything here is taken from the
instruction set, not from the core.
-/

namespace RiscvCpu
namespace Isa

/-! ## Word functions -/

def byte (x : Word) (n : Nat) : BitVec 8 := x.extractLsb' (8 * n) 8

/-- Apply a function to each of the four bytes. -/
def mapBytes (f : BitVec 8 → BitVec 8) (x : Word) : Word :=
  f (byte x 3) ++ f (byte x 2) ++ f (byte x 1) ++ f (byte x 0)

/-- The word whose bit `n` is `f n`. -/
def ofBits (f : Nat → Bool) : Word := BitVec.ofBoolListLE ((List.range 32).map f)

def flag (b : Bool) : Word := if b then 1#32 else 0#32

/-- Shift amounts and bit indices are the low five bits of the operand. -/
def amount (b : Word) : Nat := b.toNat % 32

def orcB (x : Word) : Word := mapBytes (fun b => if b = 0#8 then 0x00#8 else 0xff#8) x

def brev8 (x : Word) : Word := mapBytes BitVec.reverse x

def rev8 (x : Word) : Word := byte x 0 ++ byte x 1 ++ byte x 2 ++ byte x 3

/-- Interleave the low half (even bits) with the high half (odd bits). -/
def zip (x : Word) : Word := ofBits fun n => x.getLsbD (n / 2 + 16 * (n % 2))

/-- Gather the even bits in the low half and the odd bits in the high half. -/
def unzip (x : Word) : Word :=
  ofBits fun n => if n < 16 then x.getLsbD (2 * n) else x.getLsbD (2 * (n - 16) + 1)

/-- The number of set bits. -/
def cpop (x : Word) : Word := BitVec.ofNat 32 ((List.range 32).countP fun n => x.getLsbD n)

/-- The high word of the product of two operands, each read as signed or as unsigned. -/
def mulHigh (a b : BitVec 64) : Word := (a * b).extractLsb' 32 32

def div (a b : Word) : Word := if b = 0#32 then 0xffff_ffff#32 else a.sdiv b

def divu (a b : Word) : Word := if b = 0#32 then 0xffff_ffff#32 else a / b

def rem (a b : Word) : Word := if b = 0#32 then a else a.srem b

def remu (a b : Word) : Word := if b = 0#32 then a else a % b

/-! ## Operations -/

/-- Register-register operations. -/
inductive RegOp
  | add | sub | sll | slt | sltu | xor | srl | sra | or | and
  | mul | mulh | mulhsu | mulhu | div | divu | rem | remu
  | sh1add | sh2add | sh3add
  | andn | orn | xnor | min | max | minu | maxu
  | pack | packh
  | bclr | bext | binv | bset
  deriving DecidableEq

/-- Operations on one register and an immediate, a shift amount, or nothing else. -/
inductive ImmOp
  | addi | slti | sltiu | xori | ori | andi
  | slli | srli | srai | bclri | bexti | binvi
  | sextB | sextH | cpop | zip | unzip | orcB | rev8 | brev8
  deriving DecidableEq

inductive Cond
  | eq | ne | lt | ge | ltu | geu
  deriving DecidableEq

inductive LoadOp
  | lb | lh | lw | lbu | lhu
  deriving DecidableEq

inductive StoreOp
  | sb | sh | sw
  deriving DecidableEq

def RegOp.eval (o : RegOp) (a b : Word) : Word :=
  match o with
  | .add => a + b
  | .sub => a - b
  | .sll => a <<< amount b
  | .slt => flag (a.slt b)
  | .sltu => flag (a.ult b)
  | .xor => a ^^^ b
  | .srl => a >>> amount b
  | .sra => a.sshiftRight (amount b)
  | .or => a ||| b
  | .and => a &&& b
  | .mul => a * b
  | .mulh => mulHigh (a.signExtend 64) (b.signExtend 64)
  | .mulhsu => mulHigh (a.signExtend 64) (b.setWidth 64)
  | .mulhu => mulHigh (a.setWidth 64) (b.setWidth 64)
  | .div => Isa.div a b
  | .divu => Isa.divu a b
  | .rem => Isa.rem a b
  | .remu => Isa.remu a b
  | .sh1add => (a <<< 1) + b
  | .sh2add => (a <<< 2) + b
  | .sh3add => (a <<< 3) + b
  | .andn => a &&& ~~~b
  | .orn => a ||| ~~~b
  | .xnor => ~~~(a ^^^ b)
  | .min => if a.slt b then a else b
  | .max => if a.slt b then b else a
  | .minu => if a.ult b then a else b
  | .maxu => if a.ult b then b else a
  | .pack => b.extractLsb' 0 16 ++ a.extractLsb' 0 16
  | .packh => 0#16 ++ byte b 0 ++ byte a 0
  | .bclr => a &&& ~~~(1#32 <<< amount b)
  | .bext => flag (a.getLsbD (amount b))
  | .binv => a ^^^ (1#32 <<< amount b)
  | .bset => a ||| (1#32 <<< amount b)

def ImmOp.eval (o : ImmOp) (a imm : Word) : Word :=
  match o with
  | .addi => RegOp.add.eval a imm
  | .slti => RegOp.slt.eval a imm
  | .sltiu => RegOp.sltu.eval a imm
  | .xori => RegOp.xor.eval a imm
  | .ori => RegOp.or.eval a imm
  | .andi => RegOp.and.eval a imm
  | .slli => RegOp.sll.eval a imm
  | .srli => RegOp.srl.eval a imm
  | .srai => RegOp.sra.eval a imm
  | .bclri => RegOp.bclr.eval a imm
  | .bexti => RegOp.bext.eval a imm
  | .binvi => RegOp.binv.eval a imm
  | .sextB => (a.extractLsb' 0 8).signExtend 32
  | .sextH => (a.extractLsb' 0 16).signExtend 32
  | .cpop => Isa.cpop a
  | .zip => Isa.zip a
  | .unzip => Isa.unzip a
  | .orcB => Isa.orcB a
  | .rev8 => Isa.rev8 a
  | .brev8 => Isa.brev8 a

def Cond.holds (c : Cond) (a b : Word) : Bool :=
  match c with
  | .eq => a == b
  | .ne => a != b
  | .lt => a.slt b
  | .ge => !a.slt b
  | .ltu => a.ult b
  | .geu => !a.ult b

/-! ## Memory accesses -/

/-- The byte offset of an address in its word. -/
def offset (addr : Word) : Nat := addr.toNat % 4

/-- The value a load takes from the word that holds its address. -/
def LoadOp.extract (o : LoadOp) (addr word : Word) : Word :=
  let x := word >>> (8 * offset addr)
  match o with
  | .lb => (x.extractLsb' 0 8).signExtend 32
  | .lh => (x.extractLsb' 0 16).signExtend 32
  | .lw => x
  | .lbu => (x.extractLsb' 0 8).setWidth 32
  | .lhu => (x.extractLsb' 0 16).setWidth 32

/-- The size of an access in bytes. -/
def LoadOp.size : LoadOp → Nat
  | .lb | .lbu => 1
  | .lh | .lhu => 2
  | .lw => 4

def StoreOp.size : StoreOp → Nat
  | .sb => 1
  | .sh => 2
  | .sw => 4

/-- The byte strobes of a store. -/
def StoreOp.strobes (o : StoreOp) (addr : Word) : BitVec 4 :=
  match o with
  | .sb => 0b0001#4 <<< offset addr
  | .sh => 0b0011#4 <<< offset addr
  | .sw => 0b1111#4

/-- The strobed lanes of a store: the stored bytes at their place in the word, zero elsewhere. -/
def StoreOp.lanes (o : StoreOp) (addr x : Word) : Word :=
  match o with
  | .sb => (x &&& 0xff#32) <<< (8 * offset addr)
  | .sh => (x &&& 0xffff#32) <<< (8 * offset addr)
  | .sw => x

/-! ## Instructions -/

inductive Instr
  | lui (rd : BitVec 5) (imm : Word)
  | auipc (rd : BitVec 5) (imm : Word)
  | jal (rd : BitVec 5) (imm : Word)
  | jalr (rd rs1 : BitVec 5) (imm : Word)
  | branch (c : Cond) (rs1 rs2 : BitVec 5) (imm : Word)
  | load (o : LoadOp) (rd rs1 : BitVec 5) (imm : Word)
  | store (o : StoreOp) (rs1 rs2 : BitVec 5) (imm : Word)
  | opImm (o : ImmOp) (rd rs1 : BitVec 5) (imm : Word)
  | op (o : RegOp) (rd rs1 rs2 : BitVec 5)
  | fence
  deriving DecidableEq

end Isa
end RiscvCpu
